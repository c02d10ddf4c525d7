import DtoGen.Proofs.Words
import DtoGen.Proofs.Worklist

namespace DtoGen

namespace Locals

def underscores (k : Nat) : String := String.ofList (List.replicate k '_')

theorem toList_underscores_append (k : Nat) (name : String) :
    (underscores k ++ name).toList = List.replicate k '_' ++ name.toList := by
  rw [String.toList_append, underscores, String.toList_ofList]

theorem toList_underscore_append (name : String) : ("_" ++ name).toList = '_' :: name.toList := by
  rw [String.toList_append]
  rfl

theorem underscores_zero_append (name : String) : underscores 0 ++ name = name := by
  refine String.toList_inj.1 ?_
  rw [toList_underscores_append]
  rfl

theorem underscores_append (k : Nat) (name : String) :
    underscores k ++ ("_" ++ name) = underscores (k + 1) ++ name := by
  refine String.toList_inj.1 ?_
  rw [toList_underscores_append, toList_underscores_append, toList_underscore_append,
    List.replicate_succ', List.append_assoc, List.singleton_append]

theorem exists_fresh_eq (taken : List String) (name : String) :
    ∃ k, fresh taken name = underscores k ++ name ∧ ∀ j < k, underscores j ++ name ∈ taken := by
  fun_induction fresh taken name with
  | case1 name hmem ih =>
    obtain ⟨k, hk, htaken⟩ := ih
    refine ⟨k + 1, hk.trans (underscores_append k name), fun j hj => ?_⟩
    cases j with
    | zero => rwa [underscores_zero_append]
    | succ j =>
      rw [← underscores_append]
      exact htaken j (by omega)
  | case2 name hmem =>
    exact ⟨0, (underscores_zero_append name).symm, fun j hj => absurd hj (Nat.not_lt_zero j)⟩

theorem le_length_of_forall_mem {taken : List String} {name : String} {k : Nat}
    (h : ∀ j < k, underscores j ++ name ∈ taken) : k ≤ taken.length := by
  have hinj : Function.Injective fun j => underscores j ++ name := by
    intro i j hij
    have hlength := congrArg (fun s => s.toList.length) hij
    simp only [toList_underscores_append, List.length_append, List.length_replicate] at hlength
    omega
  have hnodup : ((List.range k).map fun j => underscores j ++ name).Nodup :=
    List.nodup_range.map hinj
  have hsubset : ((List.range k).map fun j => underscores j ++ name) ⊆ taken := by
    intro v hv
    obtain ⟨j, hj, rfl⟩ := List.mem_map.1 hv
    exact h j (List.mem_range.1 hj)
  simpa using (hnodup.subperm hsubset).length_le

/-- What holds of the variables given so far: there is one for a name, they differ, none is among the
names taken at first, and each is made of its name, whose plain spelling is taken by now. -/
structure Free (base : List String) (table : List (String × String)) : Prop where
  keys : (table.map Prod.fst).Nodup
  nodup : (table.map Prod.snd).Nodup
  apart : ∀ e ∈ table, e.2 ∉ base
  spelled : ∀ e ∈ table, ∃ k, e.2 = underscores k ++ Naming.localName e.1
  first : ∀ e ∈ table, Naming.localName e.1 ∈ base ∨ Naming.localName e.1 ∈ table.map Prod.snd

section Assign

variable {base taken : List String} {table : List (String × String)}

theorem Free.snoc (h : Free base table) (ht : ∀ v, v ∈ taken ↔ v ∈ base ∨ v ∈ table.map Prod.snd)
    {n : String} (hn : table.lookup n = none) :
    Free base (table ++ [(n, fresh taken (Naming.localName n))]) := by
  have hnew := fresh_not_mem taken (Naming.localName n)
  have hfree : fresh taken (Naming.localName n) ∉ base ∧
      fresh taken (Naming.localName n) ∉ table.map Prod.snd := by
    rw [ht, not_or] at hnew
    exact hnew
  obtain ⟨k, hk, htaken⟩ := exists_fresh_eq taken (Naming.localName n)
  refine ⟨?_, ?_, ?_, ?_, ?_⟩
  · rw [List.map_append, List.map_singleton]
    refine List.nodup_append'.2 ⟨h.keys, List.nodup_singleton _, ?_⟩
    rw [List.lookup_eq_none_iff] at hn
    rw [List.disjoint_singleton]
    intro hmem
    obtain ⟨e, he, rfl⟩ := List.mem_map.1 hmem
    simpa using hn e he
  · rw [List.map_append, List.map_singleton]
    exact List.nodup_append'.2 ⟨h.nodup, List.nodup_singleton _, by simpa using hfree.2⟩
  · exact List.forall_mem_append.2 ⟨h.apart, List.forall_mem_singleton.2 hfree.1⟩
  · exact List.forall_mem_append.2 ⟨h.spelled, List.forall_mem_singleton.2 ⟨k, hk⟩⟩
  · refine List.forall_mem_append.2 ⟨fun e he => ?_, List.forall_mem_singleton.2 ?_⟩
    · exact (h.first e he).imp_right fun hmem => by simp [hmem]
    · -- without underscores it is the new variable itself, else it was tried and taken
      cases k with
      | zero =>
        rw [underscores_zero_append] at hk
        exact .inr (by simp [hk])
      | succ k =>
        have hold := htaken 0 (by omega)
        rw [underscores_zero_append, ht] at hold
        exact hold.imp_right fun hmem => by simp [hmem]

theorem free_assign (names : List String) (h : Free base table)
    (ht : ∀ v, v ∈ taken ↔ v ∈ base ∨ v ∈ table.map Prod.snd) : Free base (assign taken names table) := by
  induction names generalizing taken table with
  | nil => exact h
  | cons n ns ih =>
    rw [assign]
    split_ifs with hn
    · exact ih h ht
    · refine ih (h.snoc ht (Option.not_isSome_iff_eq_none.1 hn)) fun v => ?_
      rw [List.mem_cons, ht, List.map_append, List.mem_append, List.map_singleton, List.mem_singleton]
      tauto

theorem isSome_lookup_assign (names : List String) (n : String) :
    ((assign taken names table).lookup n).isSome = true ↔ (table.lookup n).isSome = true ∨ n ∈ names := by
  induction names generalizing taken table with
  | nil => simp [assign]
  | cons m ns ih =>
    rw [assign, List.mem_cons]
    split_ifs with hm
    · rw [ih]
      constructor
      · exact fun h => h.imp_right .inr
      · rintro (h | rfl | h)
        · exact .inl h
        · exact .inl hm
        · exact .inr h
    · have hsnoc : ∀ v, ((table ++ [(m, v)]).lookup n).isSome = true ↔
          (table.lookup n).isSome = true ∨ n = m := by
        intro v
        have hlast : ([(m, v)].lookup n).isSome = true ↔ n = m := by
          by_cases hn : n = m
          · simp [hn]
          · have hne : (n == m) = false := beq_eq_false_iff_ne.2 hn
            simp [List.lookup_cons, hne, hn]
        rw [List.lookup_append, Option.isSome_or, Bool.or_eq_true, hlast]
      rw [ih, hsnoc, or_assoc]

end Assign

section Table

variable {s : Service} {names : List String}

theorem free_table (s : Service) (names : List String) : Free (reserved s) (table s names) :=
  free_assign names ⟨.nil, .nil, nofun, nofun, nofun⟩ (by simp)

theorem isSome_lookup_table (s : Service) (names : List String) (n : String) :
    ((table s names).lookup n).isSome = true ↔ n ∈ names :=
  (isSome_lookup_assign names n).trans (by simp)

theorem mem_table {n : String} (hn : n ∈ names) : (n, variableOf (table s names) n) ∈ table s names := by
  obtain ⟨v, hlookup⟩ := Option.isSome_iff_exists.1 ((isSome_lookup_table s names n).2 hn)
  obtain ⟨l, r, hsplit, -⟩ := List.lookup_eq_some_iff.1 hlookup
  rw [variableOf, hlookup, Option.getD_some, hsplit]
  simp

theorem mem_names_of_mem_table {e : String × String} (he : e ∈ table s names) : e.1 ∈ names := by
  have hsome : ((table s names).lookup e.1).isSome = true := by
    cases hl : (table s names).lookup e.1 with
    | none => simpa using List.lookup_eq_none_iff.1 hl e he
    | some v => rfl
  exact (isSome_lookup_table s names e.1).1 hsome

theorem variableOf_eq_of_mem {e : String × String} (he : e ∈ table s names) :
    variableOf (table s names) e.1 = e.2 := by
  have hmem := mem_table (s := s) (mem_names_of_mem_table he)
  exact congrArg Prod.snd (List.inj_on_of_nodup_map (free_table s names).keys hmem he rfl)

theorem variableOf_inj {n m : String} (hn : n ∈ names) (hm : m ∈ names)
    (h : variableOf (table s names) n = variableOf (table s names) m) : n = m :=
  congrArg Prod.fst (List.inj_on_of_nodup_map (free_table s names).nodup (mem_table hn) (mem_table hm) h)

theorem variableOf_not_mem {n : String} (hn : n ∈ names) :
    variableOf (table s names) n ∉ reserved s :=
  (free_table s names).apart _ (mem_table hn)

end Table

end Locals

/-- The characters that may start an identifier and those that may be part of one. Only those of ASCII are
fixed. -/
structure Alphabet where
  start : Char → Bool
  part : Char → Bool
  start_ascii : ∀ c, c.toNat < 128 → start c = Naming.isHead c
  part_ascii : ∀ c, c.toNat < 128 → part c = Naming.isTail c

def strictWords : List String :=
  ["implements", "interface", "package", "private", "protected", "public", "eval", "arguments"]

namespace Naming

theorem localName_of_plain {n : String} (hi : isIdentifier (camel n) = true)
    (hr : camel n ∉ reservedWords) : localName n = camel n := by
  rw [localName, hi]
  simpa using hr

theorem localName_of_not_plain {n : String}
    (h : ¬ (isIdentifier (camel n) = true ∧ camel n ∉ reservedWords)) :
    localName n = "_" ++ camel n := by
  have hcond : (!isIdentifier (camel n) || reservedWords.contains (camel n)) = true := by
    rw [Bool.or_eq_true, Bool.not_eq_true', List.contains_iff_mem]
    by_contra hnot
    rw [not_or, Bool.not_eq_false] at hnot
    exact h hnot
  rw [localName, if_pos hcond]

theorem isIdentifier_of_mem_strictWords : ∀ c ∈ strictWords, isIdentifier c = true := by decide

theorem not_mem_reservedWords_of_mem_strictWords : ∀ c ∈ strictWords, c ∉ reservedWords := by
  decide

/-- Words of the two kinds differ in this: only the first are avoided. -/
theorem localName_of_mem_strictWords {n : String} (h : camel n ∈ strictWords) :
    localName n = camel n :=
  localName_of_plain (isIdentifier_of_mem_strictWords _ h) (not_mem_reservedWords_of_mem_strictWords _ h)

theorem toNat_lt_of_isHead {c : Char} (h : isHead c = true) : c.toNat < 128 := by
  simp only [isHead, Bool.or_eq_true, beq_iff_eq] at h
  rcases h with (h | rfl) | rfl
  · simp [Char.isAlpha, Char.isUpper, Char.isLower, UInt32.le_iff_toNat_le] at h ⊢
    omega
  · decide
  · decide

theorem isUpper_head_camel (n : String) :
    ∀ c, (camel n).toList.head? = some c → c.isUpper = false := by
  intro c hc
  rw [camel, String.toList_ofList, camelChars] at hc
  split at hc
  · rename_i hwords
    exact isUpper_eq_false (forall_isAlnum_eq_false hwords c (List.mem_of_mem_head? hc))
  · rename_i w ws hwords
    have hword : w ∈ wordList n.toList := by simp [hwords]
    have hne : lowercase w ≠ [] := (isWord_lowercase hword).nonempty
    obtain ⟨d, ds, hd⟩ := List.exists_cons_of_ne_nil hne
    rw [hd, List.cons_append, List.head?_cons] at hc
    obtain rfl := Option.some.inj hc
    exact isUpper_of_mem_lowercase w d (by simp [hd])

end Naming

namespace Alphabet

/-- A text that declares a variable. -/
structure IsVariable (a : Alphabet) (v : String) : Prop where
  identifier : ∃ c cs, v.toList = c :: cs ∧ a.start c = true ∧ ∀ d ∈ cs, a.part d = true
  allowed : v ∉ Naming.reservedWords ∧ v ∉ strictWords

/-- A name of which a variable can be made by putting underscores in front of its spelling. -/
structure Bindable (a : Alphabet) (n : String) : Prop where
  parts : ∀ c ∈ (Naming.camel n).toList, a.part c = true
  allowed : Naming.camel n ∉ strictWords

instance (a : Alphabet) (n : String) : Decidable (a.Bindable n) :=
  decidable_of_iff ((Naming.camel n).toList.all a.part = true ∧ Naming.camel n ∉ strictWords)
    ⟨fun h => ⟨List.all_eq_true.1 h.1, h.2⟩, fun h => ⟨List.all_eq_true.2 h.parts, h.allowed⟩⟩

variable (a : Alphabet)

theorem start_of_isHead {c : Char} (h : Naming.isHead c = true) : a.start c = true := by
  rw [a.start_ascii c (Naming.toNat_lt_of_isHead h), h]

theorem part_of_isHead {c : Char} (h : Naming.isHead c = true) : a.part c = true := by
  rw [a.part_ascii c (Naming.toNat_lt_of_isHead h), Naming.isTail_of_isHead h]

theorem isVariable_underscore (w : String) :
    a.IsVariable ("_" ++ w) ↔ ∀ c ∈ w.toList, a.part c = true := by
  have hlist := Locals.toList_underscore_append w
  constructor
  · rintro ⟨⟨c, cs, hv, -, hparts⟩, -⟩
    obtain ⟨-, rfl⟩ := List.cons.inj (hlist.symm.trans hv)
    exact hparts
  · intro h
    have hword : ∀ v ∈ Naming.reservedWords ++ strictWords, v.toList.head? ≠ some '_' := by decide
    have hfree : "_" ++ w ∉ Naming.reservedWords ++ strictWords := by
      intro hmem
      exact hword _ hmem (by rw [hlist]; rfl)
    rw [List.mem_append, not_or] at hfree
    exact ⟨⟨'_', w.toList, hlist, a.start_of_isHead rfl, h⟩, hfree⟩

theorem isVariable_underscores (k : Nat) (w : String) :
    a.IsVariable (Locals.underscores (k + 1) ++ w) ↔ ∀ c ∈ w.toList, a.part c = true := by
  have hfront : Locals.underscores (k + 1) ++ w = "_" ++ (Locals.underscores k ++ w) := by
    refine String.toList_inj.1 ?_
    rw [Locals.toList_underscores_append, Locals.toList_underscore_append,
      Locals.toList_underscores_append, List.replicate_succ, List.cons_append]
  rw [hfront, isVariable_underscore, Locals.toList_underscores_append, List.forall_mem_append]
  refine and_iff_right fun c hc => ?_
  rw [List.eq_of_mem_replicate hc]
  exact a.part_of_isHead rfl

theorem isVariable_plain {c : String} (hi : Naming.isIdentifier c = true)
    (hr : c ∉ Naming.reservedWords) :
    a.IsVariable c ↔ (∀ d ∈ c.toList, a.part d = true) ∧ c ∉ strictWords := by
  obtain ⟨d, ds, hlist, hhead⟩ : ∃ d ds, c.toList = d :: ds ∧ Naming.isHead d = true := by
    obtain ⟨i, hplain, hc⟩ := Naming.isIdentifierChars_iff.1 hi
    cases i with
    | nil => cases hplain
    | cons d ds =>
      rw [Naming.isPlainIdentifier, Bool.and_eq_true] at hplain
      rcases hc with hc | hc
      · exact ⟨d, ds, hc, hplain.1⟩
      · exact ⟨d, ds ++ ['\n'], hc, hplain.1⟩
  rw [hlist, List.forall_mem_cons]
  constructor
  · rintro ⟨⟨e, es, hv, -, hparts⟩, -, hstrict⟩
    obtain ⟨-, rfl⟩ := List.cons.inj (hlist.symm.trans hv)
    exact ⟨⟨a.part_of_isHead hhead, hparts⟩, hstrict⟩
  · rintro ⟨⟨-, hparts⟩, hstrict⟩
    exact ⟨⟨d, ds, hlist, a.start_of_isHead hhead, hparts⟩, hr, hstrict⟩

theorem isVariable_localName (k : Nat) (n : String) :
    a.IsVariable (Locals.underscores k ++ Naming.localName n) ↔
      (∀ c ∈ (Naming.camel n).toList, a.part c = true) ∧ (k = 0 → Naming.camel n ∉ strictWords) := by
  by_cases hplain : Naming.isIdentifier (Naming.camel n) = true ∧
      Naming.camel n ∉ Naming.reservedWords
  · rw [Naming.localName_of_plain hplain.1 hplain.2]
    cases k with
    | zero =>
      rw [Locals.underscores_zero_append, a.isVariable_plain hplain.1 hplain.2]
      simp
    | succ k => simp [isVariable_underscores]
  · have hallowed : Naming.camel n ∉ strictWords := fun hstrict => hplain
      ⟨Naming.isIdentifier_of_mem_strictWords _ hstrict,
        Naming.not_mem_reservedWords_of_mem_strictWords _ hstrict⟩
    rw [Naming.localName_of_not_plain hplain, Locals.underscores_append, isVariable_underscores]
    simp [hallowed]

end Alphabet

namespace Locals

variable {s : Service} {names : List String}

theorem mem_reserved_iff {v : String} : v ∈ reserved s ↔
    v ∈ ["dto", "obj", "__rest__", "__defined__", "Object", "undefined"] ∨ (∃ h : Helper, h.name = v) ∨
      ∃ d ∈ s.types.map (·.name) ++ s.unions.map (·.name), ∃ role, mapperName d role = v := by
  have hhelper : v ∈ Helper.all.map Helper.name ↔ ∃ h : Helper, h.name = v := by
    rw [List.mem_map]
    refine exists_congr fun h => and_iff_right ?_
    cases h <;> decide
  have hmapper : v ∈ ((s.types.map (·.name) ++ s.unions.map (·.name)).flatMap fun n =>
      Role.all.map (mapperName n)) ↔
        ∃ d ∈ s.types.map (·.name) ++ s.unions.map (·.name), ∃ role, mapperName d role = v := by
    rw [List.mem_flatMap]
    refine exists_congr fun d => and_congr_right fun _ => ?_
    rw [List.mem_map]
    refine exists_congr fun role => and_iff_right ?_
    cases role <;> decide
  rw [reserved, List.mem_append, List.mem_append, hhelper, hmapper, or_assoc]

theorem head_mapperName (d : String) (role : Role) : (mapperName d role).toList.head? = some 'm' := by
  unfold mapperName
  cases role.direction <;> simp [String.toList_append]

theorem not_mem_reserved_of_mem_strictWords {v : String} (h : v ∈ strictWords) : v ∉ reserved s := by
  rw [mem_reserved_iff]
  rintro (hv | ⟨f, rfl⟩ | ⟨d, -, role, rfl⟩)
  · revert hv
    revert v
    decide
  · cases f <;> revert h <;> decide
  · have hhead : ∀ v ∈ strictWords, v.toList.head? ≠ some 'm' := by decide
    exact hhead _ h (head_mapperName d role)

/-- Whatever else is taken, all of the names get a variable just if each of them can. -/
theorem forall_isVariable_iff (a : Alphabet) (s : Service) (names : List String) :
    (∀ n ∈ names, a.IsVariable (variableOf (table s names) n)) ↔ ∀ n ∈ names, a.Bindable n := by
  have hspelled : ∀ n ∈ names, ∃ k, variableOf (table s names) n = underscores k ++ Naming.localName n :=
    fun n hn => (free_table s names).spelled _ (mem_table hn)
  constructor
  · intro h n hn
    obtain ⟨k, hk⟩ := hspelled n hn
    have hvariable := h n hn
    rw [hk, a.isVariable_localName] at hvariable
    refine ⟨hvariable.1, fun hstrict => ?_⟩
    -- the first of the names with this spelling got it as it is
    have hlocal := Naming.localName_of_mem_strictWords hstrict
    have hfirst := (free_table s names).first _ (mem_table hn)
    rw [hlocal] at hfirst
    rcases hfirst with hbase | hgiven
    · exact not_mem_reserved_of_mem_strictWords hstrict hbase
    · obtain ⟨e, he, hval⟩ := List.mem_map.1 hgiven
      have hvariable := h _ (mem_names_of_mem_table he)
      rw [variableOf_eq_of_mem he, hval] at hvariable
      exact hvariable.allowed.2 hstrict
  · intro h n hn
    obtain ⟨k, hk⟩ := hspelled n hn
    rw [hk, a.isVariable_localName]
    exact ⟨(h n hn).parts, fun _ => (h n hn).allowed⟩

end Locals

def Capture.Holds (cs : List Capture) (v k : String) : Prop :=
  ∃ c ∈ cs, c.variableName = v ∧ Naming.keyName? (Naming.memberKey c.name) = some k

/-- What a conversion calls by a name. Mappers may be called through a module. -/
def Conversion.functions (module : Option String) (c : Conversion) : List String :=
  match c.change with
  | .identity | .formatDate _ => []
  | .parseDate => ["Date"]
  | .mapper m => [module.getD m]

theorem Conversion.mem_functions {module : Option String} {c : Conversion} {r : String}
    (h : r ∈ c.functions module) : r = "Date" ∨ ∃ m ∈ c.calls, r = module.getD m := by
  unfold functions at h
  unfold calls
  cases hc : c.change with
  | identity | formatDate d => simp [hc] at h
  | parseDate => simp_all
  | mapper m => simp_all

theorem Conversion.getD_mem_functions {module : Option String} {c : Conversion} {m : String}
    (h : m ∈ c.calls) : module.getD m ∈ c.functions module := by
  unfold calls at h
  unfold functions
  cases hc : c.change with
  | identity | formatDate d | parseDate => simp [hc] at h
  | mapper k => simp_all

/-- The members that a record names, as properties or as required keys. -/
def TypeDecl.named (t : TypeDecl) : List String := t.properties.map (·.name) ++ t.requiredKeys

namespace RecordBody

def captures : RecordBody → List Capture
  | .destructured cs _ _ => cs
  | _ => []

def capturedFields : RecordBody → List Field
  | .destructured _ fields _ => fields
  | _ => []

/-- The names by which a mapper refers to what is defined outside, and those of its own variables. -/
def references (module : Option String) (role : Role) (b : RecordBody) : List String :=
  [role.parameter, Helper.compact.name, "Object", "undefined", "__rest__", "__defined__"] ++
    b.expressions.flatMap (·.conversion.functions module)

/-- The members that are taken out can be declared as variables, each field reads the variable that holds
its own member, and no other name stands for one of these variables. -/
structure Scoped (a : Alphabet) (module : Option String) (role : Role) (names : List String)
    (b : RecordBody) : Prop where
  declared : ∀ c ∈ b.captures, a.IsVariable c.variableName
  once : (b.captures.map (·.variableName)).Nodup
  own : List.Forall₂ (fun n (f : Field) => ∃ v, f.expression.operand = .raw v ∧
    Capture.Holds b.captures v (role.source.memberName n)) names b.capturedFields
  outside : ∀ r ∈ b.references module role, ∀ c ∈ b.captures, c.variableName ≠ r

end RecordBody

namespace Service

variable {s : Service} {role : Role} {t : TypeDecl}

theorem captures_recordMapper (hc : t.mapClause.isSome = true) :
    (s.recordMapper role t).body.captures = t.named.map fun n =>
      ⟨role.source.memberName n, Locals.variableOf (Locals.table s t.named) n⟩ := by
  obtain ⟨c, hc⟩ := Option.isSome_iff_exists.1 hc
  have hkeys : t.requiredKeys = c.requiredKeys := by rw [TypeDecl.requiredKeys, hc]
  simp only [recordMapper, hc, openBody, TypeDecl.definedCount, TypeDecl.named, hkeys]
  split_ifs with hzero
  · have hnone : t.properties = [] ∧ c.requiredKeys = [] := by
      simpa [List.length_eq_zero_iff] using hzero
    cases s.fold? role t c <;> simp [RecordBody.captures, hnone.1, hnone.2]
  · rfl

theorem capturedFields_recordMapper (hc : t.mapClause.isSome = true) :
    List.Forall₂ (fun n (f : Field) => f.expression.operand =
      .raw (Locals.variableOf (Locals.table s t.named) n)) t.named
        (s.recordMapper role t).body.capturedFields := by
  obtain ⟨c, hc⟩ := Option.isSome_iff_exists.1 hc
  have hkeys : t.requiredKeys = c.requiredKeys := by rw [TypeDecl.requiredKeys, hc]
  simp only [recordMapper, hc, openBody, TypeDecl.definedCount, TypeDecl.named, hkeys]
  split_ifs with hzero
  · have hnone : t.properties = [] ∧ c.requiredKeys = [] := by
      simpa [List.length_eq_zero_iff] using hzero
    cases s.fold? role t c <;> simp [RecordBody.capturedFields, hnone.1, hnone.2]
  · refine List.rel_append ?_ ?_
    · rw [List.forall₂_map_left_iff, List.forall₂_map_right_iff, List.forall₂_same]
      exact fun p _ => rfl
    · rw [List.forall₂_map_right_iff, List.forall₂_same]
      exact fun k _ => rfl

theorem declared_iff (a : Alphabet) (hc : t.mapClause.isSome = true) :
    (∀ c ∈ (s.recordMapper role t).body.captures, a.IsVariable c.variableName) ↔
      ∀ n ∈ t.named, a.Bindable n := by
  rw [captures_recordMapper hc, List.forall_mem_map, Locals.forall_isVariable_iff]

theorem once_iff (hc : t.mapClause.isSome = true) :
    ((s.recordMapper role t).body.captures.map (·.variableName)).Nodup ↔ t.named.Nodup := by
  rw [captures_recordMapper hc, List.map_map]
  constructor
  · exact List.Nodup.of_map _
  · exact fun h => h.map_on fun n hn m hm heq => Locals.variableOf_inj hn hm heq

/-- A variable holds one member, the one it was made for, if that is read back as it is written. -/
theorem holds_iff (hc : t.mapClause.isSome = true) {n : String} (hn : n ∈ t.named) :
    Capture.Holds (s.recordMapper role t).body.captures
        (Locals.variableOf (Locals.table s t.named) n) (role.source.memberName n) ↔
      Naming.Faithful (role.source.memberName n) := by
  rw [Capture.Holds, captures_recordMapper hc]
  constructor
  · rintro ⟨c, hmem, hvariable, hkey⟩
    obtain ⟨m, hm, rfl⟩ := List.mem_map.1 hmem
    obtain rfl := Locals.variableOf_inj hm hn hvariable
    rw [Naming.keyName?_memberKey] at hkey
    exact Naming.faithful_of_denoted? hkey
  · intro h
    refine ⟨_, List.mem_map_of_mem hn, rfl, ?_⟩
    rw [Naming.keyName?_memberKey, Naming.denoted?_of_faithful h]

theorem forall₂_iff_forall {α β : Type} {R S : α → β → Prop} {Q : α → Prop} {as : List α} {bs : List β}
    (h : List.Forall₂ R as bs) (hS : ∀ a ∈ as, ∀ b, R a b → (S a b ↔ Q a)) :
    List.Forall₂ S as bs ↔ ∀ a ∈ as, Q a := by
  induction h with
  | nil => simp
  | cons hab _ ih =>
    obtain ⟨hfirst, hrest⟩ := List.forall_mem_cons.1 hS
    rw [List.forall₂_cons, List.forall_mem_cons, hfirst _ hab, ih hrest]

theorem own_iff (hc : t.mapClause.isSome = true) :
    List.Forall₂ (fun n (f : Field) => ∃ v, f.expression.operand = .raw v ∧
        Capture.Holds (s.recordMapper role t).body.captures v (role.source.memberName n))
          t.named (s.recordMapper role t).body.capturedFields ↔
      ∀ n ∈ t.named, Naming.Faithful (role.source.memberName n) := by
  refine forall₂_iff_forall (capturedFields_recordMapper hc) fun n hn f hf => ?_
  rw [← holds_iff (s := s) hc hn, hf]
  simp

end Service

namespace Locals

/-- No variable starts with a capital, as what is there in any module may do. -/
theorem isUpper_head_variableOf {s : Service} {names : List String} {n : String} (hn : n ∈ names) :
    ∀ c, (variableOf (table s names) n).toList.head? = some c → c.isUpper = false := by
  have hunderscore : ∀ w : List Char, ∀ c, ('_' :: w).head? = some c → c.isUpper = false := by
    rintro w c ⟨⟩
    rfl
  obtain ⟨k, hk⟩ := (free_table s names).spelled _ (mem_table hn)
  dsimp only at hk
  rw [hk, toList_underscores_append]
  cases k with
  | zero =>
    rw [List.replicate_zero, List.nil_append]
    by_cases hplain : Naming.isIdentifier (Naming.camel n) = true ∧
        Naming.camel n ∉ Naming.reservedWords
    · rw [Naming.localName_of_plain hplain.1 hplain.2]
      exact Naming.isUpper_head_camel n
    · rw [Naming.localName_of_not_plain hplain, toList_underscore_append]
      exact hunderscore _
  | succ k =>
    rw [List.replicate_succ, List.cons_append]
    exact hunderscore _

end Locals

namespace Service

variable {s : Service} {role : Role} {t : TypeDecl}

/-- A mapper calls mappers of declarations only, so what it calls is reserved. -/
theorem mem_reserved_of_mem_calls {m : String} (h : m ∈ (s.recordMapper role t).body.calls) :
    m ∈ Locals.reserved s := by
  obtain ⟨e, he, hm⟩ := List.mem_flatMap.1 h
  obtain ⟨v, -, hconversion, -⟩ := mem_expressions_recordMapper he
  rw [hconversion] at hm
  obtain ⟨n, -, hmapped, rfl⟩ := mem_calls_conversion hm
  have hdeclared := mem_declaredNames_of_isMapped hmapped
  rw [declaredNames, List.mem_eraseDups] at hdeclared
  exact Locals.mem_reserved_iff.2 (.inr (.inr ⟨n, hdeclared, role, rfl⟩))

theorem outside_iff (module : Option String) (hc : t.mapClause.isSome = true) :
    (∀ r ∈ (s.recordMapper role t).body.references module role,
        ∀ c ∈ (s.recordMapper role t).body.captures, c.variableName ≠ r) ↔
      ∀ m, module = some m → (s.recordMapper role t).body.calls ≠ [] →
        ∀ n ∈ t.named, Locals.variableOf (Locals.table s t.named) n ≠ m := by
  simp only [captures_recordMapper hc, List.forall_mem_map]
  constructor
  · rintro h m rfl hcalls n hn
    obtain ⟨f, hf⟩ := List.exists_mem_of_ne_nil _ hcalls
    obtain ⟨e, he, hf⟩ := List.mem_flatMap.1 hf
    have hfunction : m ∈ e.conversion.functions (some m) := Conversion.getD_mem_functions hf
    exact h m (List.mem_append_right _ (List.mem_flatMap.2 ⟨e, he, hfunction⟩)) n hn
  · -- any other name is reserved, or starts with a capital
    intro h r hr n hn heq
    have hfree := Locals.variableOf_not_mem (s := s) hn
    rw [heq] at hfree
    rcases List.mem_append.1 hr with hr | hr
    · refine hfree (Locals.mem_reserved_iff.2 ?_)
      rcases List.mem_cons.1 hr with rfl | hr
      · cases role <;> simp [Role.parameter, Role.direction]
      · rcases List.mem_cons.1 hr with rfl | hr
        · exact .inr (.inl ⟨.compact, rfl⟩)
        · exact .inl (by simp at hr ⊢; tauto)
    · obtain ⟨e, he, hr⟩ := List.mem_flatMap.1 hr
      rcases Conversion.mem_functions hr with rfl | ⟨m, hm, rfl⟩
      · have hhead := Locals.isUpper_head_variableOf (s := s) hn 'D' (by rw [heq]; rfl)
        exact absurd hhead (by decide)
      · have hcalls : m ∈ (s.recordMapper role t).body.calls := List.mem_flatMap.2 ⟨e, he, hm⟩
        cases module with
        | none => exact hfree (mem_reserved_of_mem_calls hcalls)
        | some k => exact h k rfl (List.ne_nil_of_mem hcalls) n hn heq

end Service

/-- Each name has a variable and nothing else has one, no two have the same, and none is a name that a
mapper uses for itself or the name of a helper or mapper. -/
structure Locals.Harmless (s : Service) (names : List String) (table : List (String × String)) : Prop where
  defined : ∀ n, (table.lookup n).isSome = true ↔ n ∈ names
  distinct : ∀ n ∈ names, ∀ m ∈ names, variableOf table n = variableOf table m → n = m
  own : ∀ n ∈ names, variableOf table n ∉ ["dto", "obj", "__rest__", "__defined__", "Object", "undefined"]
  helper : ∀ n ∈ names, ∀ h : Helper, variableOf table n ≠ h.name
  mapper : ∀ n ∈ names, ∀ d ∈ s.types.map (·.name) ++ s.unions.map (·.name), ∀ role,
    variableOf table n ≠ mapperName d role

theorem Locals.harmless_table (s : Service) (names : List String) : Harmless s names (table s names) where
  defined := isSome_lookup_table s names
  distinct _ hn _ hm h := variableOf_inj hn hm h
  own _ hn h := variableOf_not_mem hn (mem_reserved_iff.2 (.inl h))
  helper _ hn f h := variableOf_not_mem hn (mem_reserved_iff.2 (.inr (.inl ⟨f, h.symm⟩)))
  mapper _ hn d hd role h :=
    variableOf_not_mem hn (mem_reserved_iff.2 (.inr (.inr ⟨d, hd, role, h.symm⟩)))

/-- Names that are not taken are found after as many tries as there are names taken, and the variables of a
mapper are harmless. In its body each conversion reads the variable of its own member, and all else that is
referred to is what it is outside, just if no member is named twice, each name can become a variable and is
read back as it is written, and none has the name of the module from which mappers are called. -/
theorem Service.locals_scoped (a : Alphabet) (s : Service) :
    (∀ (taken : List String) (name : String), ∃ k ≤ taken.length,
      Locals.fresh taken name = Locals.underscores k ++ name ∧ Locals.fresh taken name ∉ taken ∧
        ∀ j < k, Locals.underscores j ++ name ∈ taken) ∧
    (∀ names, Locals.Harmless s names (Locals.table s names)) ∧
    ∀ (role : Role) (t : TypeDecl) (module : Option String), t.mapClause.isSome = true →
      ((s.recordMapper role t).body.Scoped a module role t.named ↔
        t.named.Nodup ∧ (∀ n ∈ t.named, a.Bindable n ∧ Naming.Faithful (role.source.memberName n)) ∧
          ∀ m, module = some m → (s.recordMapper role t).body.calls ≠ [] →
            ∀ n ∈ t.named, Locals.variableOf (Locals.table s t.named) n ≠ m) := by
  refine ⟨fun taken name => ?_, Locals.harmless_table s, fun role t module hc => ?_⟩
  · obtain ⟨k, hk, htaken⟩ := Locals.exists_fresh_eq taken name
    exact ⟨k, Locals.le_length_of_forall_mem htaken, hk, Locals.fresh_not_mem taken name, htaken⟩
  · constructor
    · rintro ⟨hdeclared, honce, hown, houtside⟩
      have hbindable := (declared_iff a hc).1 hdeclared
      have hfaithful := (own_iff hc).1 hown
      exact ⟨(once_iff hc).1 honce, fun n hn => ⟨hbindable n hn, hfaithful n hn⟩,
        (outside_iff module hc).1 houtside⟩
    · rintro ⟨hnodup, hnames, hmodule⟩
      exact ⟨(declared_iff a hc).2 fun n hn => (hnames n hn).1, (once_iff hc).2 hnodup,
        (own_iff hc).2 fun n hn => (hnames n hn).2, (outside_iff module hc).2 hmodule⟩

/-- A record of named texts and further records of its kind. -/
def release (names : List String) : TypeDecl where
  name := "release"
  properties := names.map fun n => { name := n, value := { base := .primitive .string none } }
  mapClause := some
    { key := { base := .primitive .string none }, value := { base := .named "release" } }

def releases (names : List String) : Service where
  title := "releases"
  types := [release names]

def Alphabet.ascii : Alphabet := ⟨Naming.isHead, Naming.isTail, fun _ _ => rfl, fun _ _ => rfl⟩

/-- Names of which none can be taken for a variable as it is. -/
def awkward : List String := ["dto", "page_size", "pageSize", "class", "map_from_release_dto"]

theorem Service.locals_scoped_awkward : (release awkward).mapClause.isSome = true ∧
    ((releases awkward).recordMapper .serverInbound (release awkward)).body.Scoped .ascii none
      .serverInbound (release awkward).named := by
  have hparts : ∀ n ∈ awkward, (Naming.camel n).toList.all Naming.isTail = true := by decide
  have hallowed : ∀ n ∈ awkward, Naming.camel n ∉ strictWords := by decide
  have hread : ∀ n ∈ awkward, Naming.denoted? n = some n := by decide
  refine ⟨rfl, ((locals_scoped .ascii (releases awkward)).2.2 .serverInbound (release awkward) none
    rfl).2 ⟨by decide, fun n hn => ?_, nofun⟩⟩
  have hn : n ∈ awkward := hn
  exact ⟨⟨List.all_eq_true.1 (hparts n hn), hallowed n hn⟩, Naming.faithful_of_denoted? (hread n hn)⟩

/-- Neither an asterisk nor a word that modules keep for themselves becomes a variable, and a variable can
hide the module from which mappers are called. -/
theorem Service.locals_not_scoped :
    (∀ n ∈ ["*", "package", "mappers"], (releases [n]).check.defects = [] ∧
      release [n] ∈ (releases [n]).types ∧ (release [n]).mapClause.isSome = true) ∧
    ∀ a : Alphabet,
      ¬ ((releases ["*"]).recordMapper .serverInbound (release ["*"])).body.Scoped a none .serverInbound
        (release ["*"]).named ∧
      ¬ ((releases ["package"]).recordMapper .serverInbound (release ["package"])).body.Scoped a none
        .serverInbound (release ["package"]).named ∧
      ¬ ((releases ["mappers"]).recordMapper .serverInbound (release ["mappers"])).body.Scoped a
        (some "mappers") .serverInbound (release ["mappers"]).named := by
  refine ⟨by decide +kernel, fun a => ⟨fun h => ?_, fun h => ?_, fun h => ?_⟩⟩
  · have hbindable := (declared_iff a rfl).1 h.declared "*" (by decide)
    have hpart := hbindable.parts '*' (by decide)
    rw [a.part_ascii '*' (by decide)] at hpart
    exact absurd hpart (by decide)
  · have hbindable := (declared_iff a rfl).1 h.declared "package" (by decide)
    exact hbindable.allowed (by decide)
  · exact (outside_iff (some "mappers") rfl).1 h.outside "mappers" rfl (by decide +kernel) "mappers"
      (by decide) (by decide +kernel)

end DtoGen
