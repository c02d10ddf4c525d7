import DtoGen.Proofs.Meets
import DtoGen.Service.Dump
import DtoGen.Service.Load

namespace DtoGen

namespace Document

/-- A key with underscores: each capital letter becomes an underscore and its small letter. -/
def underscored (key : String) : String :=
  String.ofList (key.toList.flatMap fun c => if c.isUpper then ['_', c.toLower] else [c])

/-- The ways to write a key: as it is, or with underscores. -/
inductive Spells : Scalar → Scalar → Prop where
  | same (key : Scalar) : Spells key key
  | underscored (key : String) : Spells (.ofString key) (.ofString (underscored key))

/-- The same document, with any keys of its objects written with underscores. -/
inductive Respelled : Document → Document → Prop where
  | scalar (x : Scalar) : Respelled (.scalar x) (.scalar x)
  | list {ds es : List Document} (items : List.Forall₂ Respelled ds es) :
    Respelled (.list ds) (.list es)
  | mapping {es fs : Entries} (keys : List.Forall₂ Spells (es.map Prod.fst) (fs.map Prod.fst))
    (values : List.Forall₂ Respelled (es.map Prod.snd) (fs.map Prod.snd)) :
    Respelled (.mapping es) (.mapping fs)

theorem Respelled.refl : ∀ d : Document, d.Respelled d
  | .scalar x => .scalar x
  | .list _ => .list (List.forall₂_same.2 fun d _ => refl d)
  | .mapping _ => by
    refine .mapping (List.forall₂_same.2 fun k _ => .same k) ?_
    rw [List.forall₂_map_left_iff, List.forall₂_map_right_iff]
    refine List.forall₂_same.2 fun e he => ?_
    have := List.sizeOf_lt_of_mem he
    exact refl e.2
decreasing_by
  · have := List.sizeOf_lt_of_mem ‹_›
    simp only [Document.list.sizeOf_spec]
    omega
  · have : sizeOf e = 1 + sizeOf e.1 + sizeOf e.2 := by cases e; rfl
    simp only [Document.mapping.sizeOf_spec]
    omega

theorem Respelled.eq_of_scalar {x : Scalar} {d : Document} (h : Respelled (.scalar x) d) :
    d = .scalar x := by
  cases h
  rfl

theorem Respelled.eq_of_scalar_right {x : Scalar} {d : Document} (h : Respelled d (.scalar x)) :
    d = .scalar x := by
  cases h
  rfl

end Document

open Document

namespace Read

variable {α β : Type}

/-- What is read from a document, however its keys are spelled. -/
def Reads (read : Reader α) (d : Document) (a : α) : Prop := ∀ d', d.Respelled d' → read d' = .ok a

namespace Key

def isSpelling (k : Key) (name : String) : Bool := name = k.camel || name = k.snake

theorem find?_cons_of_isSpelling_eq_false {k : Key} {e : Scalar × Document} {es : Entries}
    (h : ∀ n, e.1 = .ofString n → k.isSpelling n = false) : k.find? (e :: es) = k.find? es := by
  have hget : ∀ n, k.isSpelling n = true → get? n (e :: es) = get? n es := by
    intro n hn
    have hne : ¬ e.1 = .ofString n := by
      intro hkey
      rw [h n hkey] at hn
      cases hn
    rw [get?, get?, List.find?_cons_of_neg (by simpa using hne)]
  rw [find?, find?, hget k.camel (by simp [isSpelling]), hget k.snake (by simp [isSpelling])]

theorem find?_cons_of_isSpelling {k : Key} {n : String} {d : Document} {es : Entries}
    (hn : k.isSpelling n = true) (h : ∀ e ∈ es, ∀ m, e.1 = .ofString m → k.isSpelling m = false) :
    k.find? ((.ofString n, d) :: es) = some (n, d) := by
  by_cases hcamel : n = k.camel
  · subst hcamel
    simp [find?, get?]
  · obtain rfl : n = k.snake := by simpa [isSpelling, hcamel] using hn
    have hget : get? k.camel ((.ofString k.snake, d) :: es) = none := by
      rw [get?, Option.map_eq_none_iff, List.find?_eq_none]
      intro e he hkey
      rcases List.mem_cons.1 he with rfl | he
      · exact hcamel (by simpa [Scalar.ofString] using hkey)
      · simpa [isSpelling] using h e he k.camel (by simpa using hkey)
    rw [find?, hget]
    simp [get?]

def apart (k l : Key) : Bool := !l.isSpelling k.camel && !l.isSpelling k.snake

theorem isSpelling_of_apart {k l : Key} (h : k.apart l = true) {n : String}
    (hn : k.isSpelling n = true) : l.isSpelling n = false := by
  simp only [apart, Bool.and_eq_true, Bool.not_eq_true'] at h
  have hcases : n = k.camel ∨ n = k.snake := by simpa [isSpelling] using hn
  rcases hcases with rfl | rfl
  · exact h.1
  · exact h.2

/-- The second spelling is the first one with underscores, and neither is broken. -/
def isRegular (k : Key) : Bool :=
  k.snake = underscored k.camel && !Text.hasLone k.camel && !Text.hasLone k.snake

end Key

/-- Fields that are told apart by any of their spellings. -/
def wellSpelled : List Key → Bool
  | [] => true
  | k :: ks => k.isRegular && ks.all k.apart && wellSpelled ks

structure Entered (f : Key × Document) (e : Scalar × Document) : Prop where
  key : Spells (.ofString f.1.camel) e.1
  value : f.2.Respelled e.2

structure Found (es : Entries) (f : Key × Document) (e : Scalar × Document) : Prop where
  find : ∃ n, e.1 = .ofString n ∧ Text.hasLone n = false ∧ f.1.find? es = some (n, e.2)
  value : f.2.Respelled e.2

theorem Entered.exists_spelling {f : Key × Document} {e : Scalar × Document} (h : Entered f e)
    (hregular : f.1.isRegular = true) :
    ∃ n, e.1 = .ofString n ∧ f.1.isSpelling n = true ∧ Text.hasLone n = false := by
  simp only [Key.isRegular, Bool.and_eq_true, decide_eq_true_eq, Bool.not_eq_true'] at hregular
  obtain ⟨⟨hsnake, hcamel⟩, hwhole⟩ := hregular
  obtain ⟨hkey, -⟩ := h
  generalize he : e.1 = key at hkey
  cases hkey with
  | same => exact ⟨_, rfl, by simp [Key.isSpelling], hcamel⟩
  | underscored => exact ⟨_, rfl, by simp [Key.isSpelling, hsnake], hsnake ▸ hwhole⟩

theorem regular_of_wellSpelled {ks : List Key} (h : wellSpelled ks = true) :
    ∀ k ∈ ks, k.isRegular = true := by
  induction ks with
  | nil => simp
  | cons k ks ih =>
    simp only [wellSpelled, Bool.and_eq_true] at h
    exact List.forall_mem_cons.2 ⟨h.1.1, ih h.2⟩

/-- Every field is read from its own entry, since no other entry has one of its spellings. -/
theorem found_of_entered {fs : List (Key × Document)} {es : Entries} (h : List.Forall₂ Entered fs es)
    (hspelled : wellSpelled (fs.map Prod.fst) = true) : List.Forall₂ (Found es) fs es := by
  induction h with
  | nil => exact .nil
  | @cons f e fs es hf hfs ih =>
    simp only [List.map_cons, wellSpelled, Bool.and_eq_true, List.all_eq_true, List.forall_mem_map]
      at hspelled
    obtain ⟨⟨hregular, hapart⟩, hspelled⟩ := hspelled
    have hrest := regular_of_wellSpelled hspelled
    obtain ⟨n, hn, hspelling, hwhole⟩ := hf.exists_spelling hregular
    have hothers : ∀ e' ∈ es, ∀ m, e'.1 = .ofString m → f.1.isSpelling m = false := by
      intro e' he' m hm
      obtain ⟨g, hg, hentered⟩ := exists_related_of_mem_right hfs he'
      obtain ⟨m', hm', hspells, -⟩ := hentered.exists_spelling (hrest _ (List.mem_map_of_mem hg))
      obtain rfl : m = m' := by simpa [Scalar.ofString] using hm.symm.trans hm'
      by_contra hboth
      have hfalse := Key.isSpelling_of_apart (hapart g hg) (by simpa using hboth)
      rw [hspells] at hfalse
      cases hfalse
    refine .cons ⟨⟨n, hn, hwhole, ?_⟩, hf.value⟩ ?_
    · obtain ⟨key, d⟩ := e
      obtain rfl : key = .ofString n := hn
      exact Key.find?_cons_of_isSpelling hspelling hothers
    · rw [List.forall₂_iff_zip] at ih ⊢
      obtain ⟨hlength, hzip⟩ := ih hspelled
      refine ⟨hlength, fun {g e'} hmem => ?_⟩
      obtain ⟨⟨m, hm, hlone, hfind⟩, hvalue⟩ := hzip hmem
      refine ⟨⟨m, hm, hlone, ?_⟩, hvalue⟩
      have hg := (List.of_mem_zip hmem).1
      rw [← hfind]
      refine Key.find?_cons_of_isSpelling_eq_false fun k hk => ?_
      obtain rfl : n = k := by simpa [Scalar.ofString] using hn.symm.trans hk
      exact Key.isSpelling_of_apart (hapart g hg) hspelling

/-- A reader of fields that takes these fields, and gives `a` for them. -/
structure Fields.Takes (x : Fields α) (fs : List (Key × Document)) (a : α) : Prop where
  keys : x.keys = fs.map Prod.fst
  read : ∀ es : Entries, (∀ f ∈ fs, ∃ e, Found es f e) → x.read es = .ok a

namespace Fields.Takes

variable {x : Fields α} {fs gs : List (Key × Document)} {a : α}

theorem required {k : Key} {read : Reader α} {d : Document} (h : Reads read d a) :
    (Fields.required k read).Takes [(k, d)] a where
  keys := rfl
  read es hes := by
    obtain ⟨e, ⟨n, -, -, hfind⟩, hvalue⟩ := hes (k, d) List.mem_cons_self
    simp only [Fields.required, hfind, h e.2 hvalue, Checked.under]

theorem optional {k : Key} {read : Reader α} {d : Document} {default : α} (h : Reads read d a) :
    (Fields.optional k default read).Takes [(k, d)] a where
  keys := rfl
  read es hes := by
    obtain ⟨e, ⟨n, -, -, hfind⟩, hvalue⟩ := hes (k, d) List.mem_cons_self
    simp only [Fields.optional, hfind, h e.2 hvalue, Checked.under]

theorem map (f : α → β) (h : x.Takes fs a) : (f <$> x).Takes fs (f a) where
  keys := h.keys
  read es hes := by
    change (x.read es).map f = _
    rw [h.read es hes, Checked.map]

theorem seq {y : Fields (α → β)} {f : α → β} (hy : y.Takes fs f) (hx : x.Takes gs a) :
    (y <*> x).Takes (fs ++ gs) (f a) where
  keys := by
    change y.keys ++ x.keys = _
    rw [hy.keys, hx.keys, List.map_append]
  read es hes := by
    change (y.read es).seq (x.read es) = _
    rw [hy.read es fun g hg => hes g (List.mem_append_left _ hg),
      hx.read es fun g hg => hes g (List.mem_append_right _ hg), Checked.seq]

/-- Nothing in an object is unknown if each of its entries is for a field. -/
theorem entries (h : x.Takes fs a) (hspelled : wellSpelled x.keys = true) {es : Entries}
    (hes : List.Forall₂ Entered fs es) : x.entries es = .ok a := by
  have hfound := found_of_entered hes (h.keys ▸ hspelled)
  have hwhole : (es.any fun e => isBrokenKey e.1) = false := by
    rw [List.any_eq_false]
    intro e he
    obtain ⟨f, -, ⟨n, hn, hlone, -⟩, -⟩ := exists_related_of_mem_right hfound he
    simp [hn, Scalar.ofString, isBrokenKey, hlone]
  have hknown : unknown x.keys es = .ok () := by
    have hnone : (es.filterMap fun e =>
        keyIssue? (x.keys.filterMap fun k => (k.find? es).map Prod.fst) e.1) = [] := by
      rw [List.filterMap_eq_nil_iff]
      intro e he
      obtain ⟨f, hf, ⟨n, hn, -, hfind⟩, -⟩ := exists_related_of_mem_right hfound he
      have hused : n ∈ x.keys.filterMap fun k => (k.find? es).map Prod.fst := by
        refine List.mem_filterMap.2 ⟨f.1, h.keys ▸ List.mem_map_of_mem hf, ?_⟩
        rw [hfind, Option.map_some]
      rw [hn, Scalar.ofString, keyIssue?, List.contains_iff_mem.2 hused, if_pos rfl]
    simp only [unknown, hnone]
  have hread := h.read es fun f hf => by
    obtain ⟨e, -, he⟩ := exists_related_of_mem_left hfound hf
    exact ⟨e, he⟩
  rw [Fields.entries, hwhole, hread, hknown]
  rfl

end Fields.Takes

theorem exists_entered {fs : List (Key × Document)} {d : Document}
    (h : (Dump.object (fs.map fun f => (f.1.camel, f.2))).Respelled d) :
    ∃ es, d = .mapping es ∧ List.Forall₂ Entered fs es := by
  unfold Dump.object at h
  rw [List.map_map] at h
  cases h with
  | @mapping _ es hkeys hvalues =>
    refine ⟨es, rfl, ?_⟩
    rw [List.map_map, List.forall₂_map_left_iff, List.forall₂_map_right_iff, List.forall₂_iff_zip]
      at hkeys hvalues
    rw [List.forall₂_iff_zip]
    exact ⟨hkeys.1, fun hmem => ⟨hkeys.2 hmem, hvalues.2 hmem⟩⟩

theorem Fields.Takes.object {x : Fields α} {fs : List (Key × Document)} {a : α} (h : x.Takes fs a)
    (hspelled : wellSpelled x.keys = true) :
    Reads x.object (Dump.object (fs.map fun f => (f.1.camel, f.2))) a := by
  intro d hd
  obtain ⟨es, rfl, hes⟩ := exists_entered hd
  exact h.entries hspelled hes

theorem Key.get?_of_find?_plain {tag n : String} {es : Entries} {d : Document}
    (h : (Key.plain tag).find? es = some (n, d)) : get? tag es = some d := by
  unfold Key.find? Key.plain at h
  dsimp only at h
  cases hget : get? tag es with
  | none => simp [hget] at h
  | some d' =>
    rw [hget, Option.some.injEq, Prod.mk.injEq] at h
    rw [h.2]

theorem Fields.Takes.tagged {x : Fields α} {fs : List (Key × Document)} {a : α} {tag t : String}
    {cases : List (String × Fields α)} (h : x.Takes ((.plain tag, Dump.string t) :: fs) a)
    (hspelled : wellSpelled x.keys = true) (hcase : cases.lookup t = some x) :
    Reads (Read.tagged tag cases)
      (Dump.object (((.plain tag, Dump.string t) :: fs).map fun f => (f.1.camel, f.2))) a := by
  intro d hd
  obtain ⟨es, rfl, hes⟩ := exists_entered hd
  have hfound := found_of_entered hes (h.keys ▸ hspelled)
  obtain ⟨e, -, ⟨n, -, -, hfind⟩, hvalue⟩ := exists_related_of_mem_left hfound List.mem_cons_self
  have hget := Key.get?_of_find?_plain hfind
  rw [hvalue.eq_of_scalar] at hget
  simp only [Read.tagged, hget, Scalar.ofString, hcase, h.entries hspelled hes, Checked.under]

theorem Reads.scalar {read : Reader α} {x : Scalar} {a : α} (h : read (.scalar x) = .ok a) :
    Reads read (.scalar x) a := by
  intro d hd
  rw [hd.eq_of_scalar, h]

theorem reads_string (s : String) : Reads string (Dump.string s) s := .scalar rfl

theorem reads_bool (b : Bool) : Reads bool (Dump.bool b) b := .scalar rfl

theorem reads_int (n : Int) : Reads int (Dump.int n) n := .scalar rfl

theorem reads_choice {kind : IssueKind} (name : α → String) {choices : List α} (a : α)
    (h : choices.find? (name · == name a) = some a) :
    Reads (choice kind name choices) (Dump.string (name a)) a := by
  refine .scalar ?_
  rw [Scalar.ofString, choice, h]

theorem Reads.nullable {read : Reader α} {dump : α → Document} (h : ∀ a, Reads read (dump a) a)
    (hnull : ∀ a, dump a ≠ .null) (o : Option α) :
    Reads (Read.nullable read) (Dump.optional dump o) o := by
  cases o with
  | none => exact .scalar rfl
  | some a =>
    intro d hd
    have hne : d ≠ .null := by
      rintro rfl
      exact hnull a hd.eq_of_scalar_right
    rw [Read.nullable]
    · rw [h a d hd]
      rfl
    · exact hne

theorem Reads.list {read : Reader α} {dump : α → Document} (h : ∀ a, Reads read (dump a) a)
    (as : List α) : Reads (Read.list read) (Dump.list dump as) as := by
  rintro _ (_ | hitems)
  rename_i ds
  rw [List.forall₂_map_left_iff] at hitems
  have heach : ∀ i, Checked.each read i ds = .ok as := by
    induction hitems with
    | nil => exact fun i => rfl
    | @cons a d as ds hd _ ih =>
      intro i
      rw [Checked.each, h a d hd, ih (i + 1)]
      rfl
  exact heach 0

theorem takes_tagField (key tag : String) :
    (tagField key tag).Takes [(.plain key, Dump.string tag)] () :=
  .optional (reads_choice (fun _ => tag) () (by simp))

theorem takes_name (n : String) : name.Takes [(.plain "name", Dump.string n)] n :=
  .required (reads_string n)

theorem string_ne_null (s : String) : Dump.string s ≠ .null := by
  simp [Dump.string, Scalar.ofString, Document.null]

theorem takes_description (s : Option String) :
    description.Takes [(.plain "description", Dump.optional Dump.string s)] s :=
  .optional (.nullable reads_string string_ne_null s)

theorem takes_flag (k : Key) (default b : Bool) :
    (Fields.optional k default bool).Takes [(k, Dump.bool b)] b :=
  .optional (reads_bool b)

theorem takes_list {k : Key} {default : List α} {read : Reader α} {dump : α → Document}
    (h : ∀ a, Reads read (dump a) a) (as : List α) :
    (Fields.optional k default (list read)).Takes [(k, Dump.list dump as)] as :=
  .optional (.list h as)

theorem object_ne_null (fields : List (String × Document)) : Dump.object fields ≠ .null := by
  simp [Dump.object, Document.null]

theorem reads_constant (l : Literal) : Reads constant.object (Dump.constant l) l := by
  have hvalue : constant.Takes [(.plain "value", .scalar (.literal l))] l := .required (.scalar rfl)
  exact hvalue.object (by decide)

theorem takes_reference (r : Reference) :
    reference.Takes [(.plain "kind", Dump.string "ComplexValue"),
      (⟨"typeName", "type_name"⟩, Dump.string r.name), (⟨"isArray", "is_array"⟩, Dump.bool r.isArray),
      (⟨"isOptional", "is_optional"⟩, Dump.bool r.isOptional),
      (⟨"isNullable", "is_nullable"⟩, Dump.bool r.isNullable)] r :=
  .seq (.seq (.seq (.seq (.map _ (takes_tagField _ _)) (.required (reads_string r.name)))
    (takes_flag _ _ r.isArray)) (takes_flag _ _ r.isOptional)) (takes_flag _ _ r.isNullable)

theorem reads_reference (r : Reference) : Reads reference.object (Dump.reference r) r :=
  (takes_reference r).object (by decide)

theorem takes_primitiveValue (k : Primitive) (c : Option Literal) (array opt null : Bool) :
    primitiveValue.Takes [(.plain "kind", Dump.string "PrimitiveValue"),
      (⟨"typeName", "type_name"⟩, Dump.string k.name), (⟨"isArray", "is_array"⟩, Dump.bool array),
      (⟨"isOptional", "is_optional"⟩, Dump.bool opt),
      (⟨"isNullable", "is_nullable"⟩, Dump.bool null),
      (.plain "constant", Dump.optional Dump.constant c)] ⟨.primitive k c, array, opt, null⟩ := by
  have hkind : Reads (choice .notPrimitive Primitive.name Primitive.all) (Dump.string k.name) k :=
    reads_choice _ k (by cases k <;> decide)
  have hconstant : Reads (nullable constant.object) (Dump.optional Dump.constant c) c :=
    .nullable reads_constant (fun _ => object_ne_null _) c
  exact .seq (.seq (.seq (.seq (.seq (.map _ (takes_tagField _ _)) (.required hkind))
    (takes_flag _ _ array)) (takes_flag _ _ opt)) (takes_flag _ _ null)) (.optional hconstant)

theorem reads_value (v : Value) : Reads value (Dump.value v) v := by
  obtain ⟨base, array, opt, null⟩ := v
  cases base with
  | primitive k c => exact (takes_primitiveValue k c array opt null).tagged (by decide) rfl
  | named n =>
    exact ((takes_reference ⟨n, array, opt, null⟩).map Reference.toValue).tagged (by decide) rfl

theorem value_ne_null (v : Value) : Dump.value v ≠ .null := by
  unfold Dump.value
  split <;> exact object_ne_null _

theorem reads_property (p : Property) : Reads property.object (Dump.property p) p := by
  refine Fields.Takes.object (.seq (.seq (.seq (.map _ (takes_name _)) (.required (reads_value _)))
    (takes_description _)) (takes_flag _ _ _)) ?_
  decide

theorem reads_mapClause (m : MapClause) : Reads mapClause.object (Dump.mapClause m) m := by
  refine Fields.Takes.object (.seq (.seq (.map _ (.required (reads_value _)))
    (.required (reads_value _))) (takes_list reads_string _)) ?_
  decide

theorem reads_sizeRule (r : SizeRule) : Reads sizeRule (Dump.sizeRule r) r := by
  cases r with
  | atMost n =>
    have htakes : atMost.Takes [(.plain "id", Dump.string "ObjectMaxProperties"),
        (.plain "max", Dump.int n)] (.atMost n) :=
      .seq (.map _ (takes_tagField _ _)) (.required (reads_int n))
    exact htakes.tagged (by decide) rfl
  | atLeast n =>
    have htakes : atLeast.Takes [(.plain "id", Dump.string "ObjectMinProperties"),
        (.plain "min", Dump.int n)] (.atLeast n) :=
      .seq (.map _ (takes_tagField _ _)) (.required (reads_int n))
    exact htakes.tagged (by decide) rfl

theorem reads_typeDecl (t : TypeDecl) : Reads typeDecl.object (Dump.typeDecl t) t := by
  have hclause : Reads (nullable mapClause.object) (Dump.optional Dump.mapClause t.mapClause)
      t.mapClause := .nullable reads_mapClause (fun _ => object_ne_null _) _
  refine Fields.Takes.object (.seq (.seq (.seq (.seq (.seq (.map _ (takes_name _))
    (takes_list reads_property _)) (.optional hclause)) (takes_list reads_sizeRule _))
    (takes_description _)) (takes_flag _ _ _)) ?_
  decide

theorem reads_enumMember (m : EnumMember) : Reads enumMember.object (Dump.enumMember m) m := by
  refine Fields.Takes.object (.seq (.map _ (.required (reads_string _))) (takes_description _)) ?_
  decide

theorem reads_enumDecl (e : EnumDecl) : Reads enumDecl.object (Dump.enumDecl e) e := by
  refine Fields.Takes.object (.seq (.seq (.seq (.map _ (takes_name _))
    (takes_list reads_enumMember _)) (takes_description _)) (takes_flag _ _ _)) ?_
  decide

theorem reads_unionDecl (u : UnionDecl) : Reads unionDecl (Dump.unionDecl u) u := by
  obtain ⟨n, body, desc, old⟩ := u
  cases body with
  | simple ms =>
    have htakes : simpleUnion.Takes [(.plain "kind", Dump.string "SimpleUnion"),
        (.plain "name", Dump.string n), (.plain "members", Dump.list Dump.value ms),
        (.plain "description", Dump.optional Dump.string desc),
        (.plain "deprecated", Dump.bool old)] ⟨n, .simple ms, desc, old⟩ :=
      .seq (.seq (.seq (.seq (.map _ (takes_tagField _ _)) (takes_name n))
        (takes_list reads_value ms)) (takes_description desc)) (takes_flag _ _ old)
    exact htakes.tagged (by decide) rfl
  | discriminated d ms =>
    have htakes : discriminatedUnion.Takes [(.plain "kind", Dump.string "DiscriminatedUnion"),
        (.plain "name", Dump.string n), (.plain "discriminator", Dump.string d),
        (.plain "members", Dump.list Dump.reference ms),
        (.plain "description", Dump.optional Dump.string desc),
        (.plain "deprecated", Dump.bool old)] ⟨n, .discriminated d ms, desc, old⟩ :=
      .seq (.seq (.seq (.seq (.seq (.map _ (takes_tagField _ _)) (takes_name n))
        (.required (reads_string d))) (takes_list reads_reference ms)) (takes_description desc))
        (takes_flag _ _ old)
    exact htakes.tagged (by decide) rfl

theorem reads_parameter (p : Parameter) : Reads parameter.object (Dump.parameter p) p := by
  refine Fields.Takes.object (.seq (.seq (.seq (.map _ (takes_name _)) (.required (reads_value _)))
    (takes_description _)) (takes_flag _ _ _)) ?_
  decide

theorem reads_method (m : Method) : Reads method.object (Dump.method m) m := by
  have hreturns : Reads (nullable value) (Dump.optional Dump.value m.returns) m.returns :=
    .nullable reads_value value_ne_null _
  refine Fields.Takes.object (.seq (.seq (.seq (.seq (.map _ (takes_name _))
    (takes_list reads_parameter _)) (.optional hreturns)) (takes_description _))
    (takes_flag _ _ _)) ?_
  decide

theorem reads_httpParameter (p : HttpParameter) :
    Reads httpParameter.object (Dump.httpParameter p) p := by
  have hlocation : Reads (choice .notChoice ParameterLocation.name ParameterLocation.all)
      (Dump.string p.location.name) p.location :=
    reads_choice _ _ (by cases p.location <;> decide)
  have hformat : Reads (nullable (choice .notChoice ArrayFormat.name ArrayFormat.all))
      (Dump.optional (fun f => Dump.string f.name) p.arrayFormat) p.arrayFormat :=
    .nullable (fun f => reads_choice _ f (by cases f <;> decide)) (fun _ => string_ne_null _) _
  refine Fields.Takes.object (.seq (.seq (.map _ (takes_name _)) (.required hlocation))
    (.optional hformat)) ?_
  decide

theorem reads_httpMethod (m : HttpMethod) : Reads httpMethod.object (Dump.httpMethod m) m := by
  refine Fields.Takes.object (.seq (.seq (.seq (.map _ (takes_name _)) (.required (reads_string _)))
    (.optional (reads_int _))) (takes_list reads_httpParameter _)) ?_
  decide

theorem reads_httpRoute (r : HttpRoute) : Reads httpRoute.object (Dump.httpRoute r) r := by
  refine Fields.Takes.object (.seq (.map _ (.required (reads_string _)))
    (takes_list reads_httpMethod _)) ?_
  decide

theorem reads_interface (i : Interface) : Reads interface.object (Dump.interface i) i := by
  refine Fields.Takes.object (.seq (.seq (.seq (.seq (.map _ (takes_name _))
    (takes_list reads_method _)) (takes_list reads_httpRoute _)) (takes_description _))
    (takes_flag _ _ _)) ?_
  decide

theorem reads_service (s : Service) : Reads service.object (Dump.service s) s := by
  refine Fields.Takes.object (.seq (.seq (.seq (.seq (.seq (.map _ (.required (reads_string _)))
    (.optional (reads_int _))) (takes_list reads_interface _)) (takes_list reads_typeDecl _))
    (takes_list reads_enumDecl _)) (takes_list reads_unionDecl _)) ?_
  decide

end Read

/-- A service is read back from the document that it is written as, whole and with every constant of
the kind it had; and however many keys of that document, in whichever of its objects, are written
with underscores, it is the same service that is read. -/
theorem Service.ofDocument_dump (label : String) (s : Service) :
    ofDocument label (Dump.service s) = .ok s ∧
      ∀ d, (Dump.service s).Respelled d → ofDocument label d = .ok s := by
  have hrespelled : ∀ d, (Dump.service s).Respelled d → ofDocument label d = .ok s := by
    intro d hd
    have hread := Read.reads_service s d hd
    obtain ⟨es, rfl⟩ : ∃ es, d = .mapping es := by
      cases hd
      exact ⟨_, rfl⟩
    change Read.service.entries es = .ok s at hread
    rw [ofDocument, hread]
  exact ⟨hrespelled _ (.refl _), hrespelled⟩

/-- A service with a constant that is the number one, and not the truth value. -/
def Service.gauge : Service where
  title := "Gauge"
  majorVersion := 2
  types := [{
    name := "Reading"
    properties := [{ name := "unit", value := { base := .primitive .integer (some (.int 1)) } }] }]

theorem Service.ofDocument_gauge :
    ofDocument "gauge.json" (Dump.object [
      ("title", Dump.string "Gauge"), ("major_version", Dump.int 2), ("interfaces", .list []),
      ("types", .list [Dump.object [
        ("name", Dump.string "Reading"),
        ("properties", .list [Dump.object [
          ("name", Dump.string "unit"),
          ("value", Dump.object [
            ("kind", Dump.string "PrimitiveValue"), ("type_name", Dump.string "integer"),
            ("isArray", Dump.bool false), ("is_optional", Dump.bool false),
            ("isNullable", Dump.bool false), ("constant", Dump.constant (.int 1))]),
          ("description", .null), ("deprecated", Dump.bool false)]]),
        ("map_properties", .null), ("rules", .list []), ("description", .null),
        ("deprecated", Dump.bool false)]]),
      ("enums", .list []), ("unions", .list [])]) = .ok gauge := by
  refine (ofDocument_dump _ _).2 _ ?_
  have hmajor : Document.Spells (.ofString "majorVersion") (.ofString "major_version") :=
    .underscored "majorVersion"
  have htype : Document.Spells (.ofString "typeName") (.ofString "type_name") :=
    .underscored "typeName"
  have hoptional : Document.Spells (.ofString "isOptional") (.ofString "is_optional") :=
    .underscored "isOptional"
  have hclause : Document.Spells (.ofString "mapProperties") (.ofString "map_properties") :=
    .underscored "mapProperties"
  repeat' first
    | exact Document.Spells.same _
    | exact Document.Respelled.scalar _
    | assumption
    | apply Document.Respelled.mapping
    | apply Document.Respelled.list
    | apply List.Forall₂.cons
    | apply List.Forall₂.nil

end DtoGen
