import DtoGen.Proofs.RoundTrip

namespace DtoGen

namespace Names

/-- Names in the order in which they are first met, after those already seen. -/
def distinct (seen : List String) : List String → List String
  | [] => seen
  | n :: ns => distinct (if n ∈ seen then seen else seen ++ [n]) ns

theorem mem_distinct {seen ns : List String} {n : String} :
    n ∈ distinct seen ns ↔ n ∈ seen ∨ n ∈ ns := by
  induction ns generalizing seen with
  | nil => simp [distinct]
  | cons m ns ih =>
    rw [distinct, ih]
    split_ifs with hm
    · constructor
      · rintro (h | h)
        · exact .inl h
        · exact .inr (List.mem_cons_of_mem m h)
      · rintro (h | h)
        · exact .inl h
        · rcases List.mem_cons.1 h with rfl | h
          · exact .inl hm
          · exact .inr h
    · simp [or_assoc]

def last? (spell : String → String) (key : String) (ns : List String) : Option String :=
  ns.reverse.find? fun n => spell n = key

variable {spell : String → String} {key n : String} {ns : List String}

theorem mem_of_last? (h : last? spell key ns = some n) : n ∈ ns ∧ spell n = key :=
  ⟨List.mem_reverse.1 (List.mem_of_find?_eq_some h), by simpa using List.find?_some h⟩

theorem last?_eq_none_iff : last? spell key ns = none ↔ ∀ n ∈ ns, spell n ≠ key := by
  simp [last?]

theorem exists_last? (spell : String → String) (h : n ∈ ns) : ∃ m, last? spell (spell n) ns = some m := by
  cases hl : last? spell (spell n) ns with
  | some m => exact ⟨m, rfl⟩
  | none => exact absurd rfl (last?_eq_none_iff.1 hl n h)

theorem last?_wire (h : n ∈ ns) : last? (Facet.memberName .wire) n ns = some n := by
  obtain ⟨m, hm⟩ := exists_last? (Facet.memberName .wire) h
  obtain ⟨-, hname⟩ := mem_of_last? hm
  exact hm.trans (congrArg some hname)

end Names

namespace Members

/-- Under a spelling stands the value of the last name that is spelled so. -/
theorem read_ofPairs_map (spell : String → String) (value : String → Datum) (ns : List String)
    (key : String) : (ofPairs (ns.map fun n => (spell n, value n))).read key =
      ((Names.last? spell key ns).map value).getD .undefined := by
  have hlookup : ∀ ms : List String, (ms.map fun n => (spell n, value n)).lookup key =
      (ms.find? fun n => spell n = key).map value := by
    intro ms
    induction ms with
    | nil => rfl
    | cons m ms ih =>
      rw [List.map_cons, Assoc.lookup_cons, List.find?_cons, ih]
      by_cases hm : spell m = key
      · simp [hm]
      · simp [hm, Ne.symm hm]
  rw [ofPairs, read_compact, read, Assoc.lookup_ofList, ← List.map_reverse, hlookup]
  rfl

end Members

/-- The object that an action makes of the members of the parameter, if it merges. -/
def Action.construct (env : Runtime) (x : Members) : Action → Option Members
  | .merge fields => (fields.mapM (Field.run env x)).map .ofPairs
  | _ => none

namespace Service

variable {s : Service} {role : Role} {env : Runtime} {x : Members}

/-- The field for a property that may come from any of several records. -/
def mergedField (s : Service) (role : Role) (p : Property) : Field :=
  s.propertyField role { p with value := p.value.asOptional } Action.mergedObject

/-- Merging gives one field for each name, and properties of one name have the same. -/
theorem mergeFields_ok {conflict : RenderError} {fields : List (String × Field)}
    {ps : List Property} {fs : List Field}
    (h : (s.mergeFields role conflict fields ps).result = .ok fs) :
    ∃ table : List (String × Field), fs = table.map Prod.snd ∧
      table.map Prod.fst = Names.distinct (fields.map Prod.fst) (ps.map (·.name)) ∧
      (∀ e ∈ table, e ∈ fields ∨ ∃ p ∈ ps, e = (p.name, s.mergedField role p)) ∧
      (∀ n f, fields.lookup n = some f → table.lookup n = some f) ∧
      ∀ p ∈ ps, table.lookup p.name = some (s.mergedField role p) := by
  induction ps generalizing fields with
  | nil =>
    refine ⟨fields, (Except.ok.inj h).symm, rfl, fun e he => .inl he, fun _ _ hf => hf, ?_⟩
    exact List.forall_mem_nil _
  | cons p ps ih =>
    rw [mergeFields] at h
    obtain ⟨-, -, h⟩ := Journal.bind_result_ok.1 h
    cases hp : fields.lookup p.name with
    | none =>
      simp only [hp] at h
      obtain ⟨table, hfs, hnames, hentries, hkept, hfound⟩ := ih h
      have hnew : p.name ∉ fields.map Prod.fst := by
        intro hmem
        obtain ⟨e, he, hname⟩ := List.mem_map.1 hmem
        have hother := List.lookup_eq_none_iff.1 hp e he
        simp [hname] at hother
      refine ⟨table, hfs, ?_, ?_, ?_, ?_⟩
      · rw [hnames, List.map_cons, Names.distinct, if_neg hnew, List.map_append]
        rfl
      · intro e he
        rcases hentries e he with hold | ⟨q, hq, rfl⟩
        · rcases List.mem_append.1 hold with hold | hlast
          · exact .inl hold
          · exact .inr ⟨p, List.mem_cons_self, List.mem_singleton.1 hlast⟩
        · exact .inr ⟨q, List.mem_cons_of_mem p hq, rfl⟩
      · intro n f hf
        exact hkept n f (by rw [List.lookup_append, hf]; rfl)
      · refine List.forall_mem_cons.2 ⟨hkept _ _ ?_, hfound⟩
        rw [List.lookup_append, hp]
        simp [mergedField]
    | some g =>
      simp only [hp] at h
      split_ifs at h with hsame
      · obtain ⟨table, hfs, hnames, hentries, hkept, hfound⟩ := ih h
        have hold : p.name ∈ fields.map Prod.fst :=
          List.mem_map_of_mem (f := Prod.fst) (Assoc.mem_of_lookup hp)
        refine ⟨table, hfs, ?_, ?_, hkept, List.forall_mem_cons.2 ⟨hkept _ _ ?_, hfound⟩⟩
        · rw [hnames, List.map_cons, Names.distinct, if_pos hold]
        · intro e he
          exact (hentries e he).imp_right fun ⟨q, hq, hqe⟩ => ⟨q, List.mem_cons_of_mem p hq, hqe⟩
        · rw [hp, ← hsame]
          rfl
      · simp at h

/-- What the fields for a value make of what they read, if there is anything. -/
def converted (s : Service) (role : Role) (env : Runtime) (v : Value) (d : Datum) : Option Datum :=
  if !(s.conversion role v).isIdentity && v.isNullable && d.isNull then some d
  else (s.conversion role v).run env d

/-- What becomes of a property; what is absent stays absent. -/
def propertyValue (s : Service) (role : Role) (env : Runtime) (x : Members) (p : Property) :
    Option Datum :=
  if (x.read (role.source.memberName p.name)).isUndefined then some .undefined
  else s.converted role env p.value (x.read (role.source.memberName p.name))

/-- A field reads its member under the source spelling and writes it under the target spelling. -/
theorem propertyField_run {p : Property} (hf : Naming.Faithful p.name) (object : String)
    (h : (x.read (role.source.memberName p.name)).isUndefined = true → p.value.isOptional = true) :
    (s.propertyField role p object).run env x =
      (s.propertyValue role env x p).map fun d => (role.target.memberName p.name, d) := by
  have htarget := role.target.faithful_memberName hf
  have hsource := role.source.faithful_memberName hf
  simp only [Field.run, propertyField, Naming.keyName?_memberKey, Naming.denoted?_of_faithful htarget,
    Option.bind_some, Expression.run, Expression.convert, Operand.run, expression, Naming.accessName?_accessor,
    Naming.denoted?_of_faithful hsource, Option.map_some, propertyValue]
  generalize x.read (role.source.memberName p.name) = d at h ⊢
  by_cases hd : d.isUndefined = true
  · obtain rfl := Datum.isUndefined_iff.1 hd
    by_cases hc : (s.conversion role p.value).isIdentity = true
    · simp [hc, hd, conversion_run_of_isIdentity hc]
    · simp [hc, hd, h hd]
  · simp [hd, converted]

theorem mergedField_run {p : Property} (hf : Naming.Faithful p.name) :
    (s.mergedField role p).run env x =
      (s.propertyValue role env x p).map fun d => (role.target.memberName p.name, d) :=
  propertyField_run (p := { p with value := p.value.asOptional }) hf _ fun _ => rfl

theorem propertyValue_eq {p q : Property} (hname : p.name = q.name)
    (h : s.mergedField role p = s.mergedField role q) :
    s.propertyValue role env x p = s.propertyValue role env x q := by
  have hexpression := congrArg Field.expression h
  have hconversion : s.conversion role p.value = s.conversion role q.value :=
    congrArg Expression.conversion hexpression
  have hguards : (!(s.conversion role p.value).isIdentity && p.value.isNullable) =
      (!(s.conversion role q.value).isIdentity && q.value.isNullable) :=
    congrArg Expression.guardsNull hexpression
  unfold propertyValue converted
  rw [hname, hguards, hconversion]

/-- What becomes of a name, by the first property that has it. -/
def namedValue (s : Service) (role : Role) (env : Runtime) (x : Members) (ps : List Property)
    (n : String) : Option Datum :=
  (ps.find? fun p => p.name = n).bind (s.propertyValue role env x)

theorem namedValue_eq {ps : List Property}
    (h : ∀ p ∈ ps, ∀ q ∈ ps, p.name = q.name → s.mergedField role p = s.mergedField role q)
    {p : Property} (hp : p ∈ ps) :
    s.namedValue role env x ps p.name = s.propertyValue role env x p := by
  unfold namedValue
  cases hq : ps.find? fun q => q.name = p.name with
  | none => exact absurd (List.find?_eq_none.1 hq p hp) (by simp)
  | some q =>
    have hname : q.name = p.name := by simpa using List.find?_some hq
    exact propertyValue_eq hname (h q (List.mem_of_find?_eq_some hq) p hp hname)

/-- The object with a value for each of some names, if all the values are there. -/
def ofValues (spell : String → String) (value : String → Option Datum) (ns : List String) :
    Option Members :=
  if ∀ n ∈ ns, value n ≠ none then
    some (.ofPairs (ns.map fun n => (spell n, (value n).getD .undefined)))
  else none

theorem map_ofPairs_mapM {α : Type} {run : α → Option (String × Datum)} {name : α → String}
    {spell : String → String} {value : String → Option Datum} {as : List α}
    (h : ∀ a ∈ as, run a = (value (name a)).map fun d => (spell (name a), d)) :
    (as.mapM run).map .ofPairs = ofValues spell value (as.map name) := by
  have hmap : as.mapM run = if ∀ n ∈ as.map name, value n ≠ none then
      some ((as.map name).map fun n => (spell n, (value n).getD .undefined)) else none := by
    induction as with
    | nil => simp
    | cons a as ih =>
      obtain ⟨ha, hrest⟩ := List.forall_mem_cons.1 h
      rw [List.mapM_cons, ha, ih hrest]
      cases hv : value (name a) with
      | none => simp [hv]
      | some d =>
        by_cases hall : ∀ n ∈ as.map name, value n ≠ none
        · rw [if_pos hall, if_pos (by simpa [hv] using hall)]
          simp [hv]
        · rw [if_neg hall, if_neg (by simpa [hv] using hall)]
          simp
  rw [hmap, ofValues]
  split_ifs <;> rfl

def mergedNames (records : List TypeDecl) : List String :=
  Names.distinct [] ((records.flatMap (·.properties)).map (·.name))

theorem mem_mergedNames {records : List TypeDecl} {n : String} :
    n ∈ mergedNames records ↔ ∃ t ∈ records, ∃ p ∈ t.properties, p.name = n := by
  simp only [mergedNames, Names.mem_distinct, List.not_mem_nil, false_or, List.mem_map,
    List.mem_flatMap]
  constructor
  · rintro ⟨p, ⟨t, ht, hp⟩, rfl⟩
    exact ⟨t, ht, p, hp, rfl⟩
  · rintro ⟨t, ht, p, hp, rfl⟩
    exact ⟨p, ⟨t, ht, hp⟩, rfl⟩

/-- What merging needs of the records and of the spellings of their names. -/
structure Mergeable (role : Role) (records : List TypeDecl) : Prop where
  /-- A name that is spelled like a name of a record on the way in is declared by that record. -/
  unread : ∀ t ∈ records, ∀ p ∈ t.properties, ∀ n ∈ mergedNames records,
    role.source.memberName n = role.source.memberName p.name → t.declares n = true
  /-- Of the names with one spelling on the way out, a record has the last one last as well. -/
  last : ∀ t ∈ records, ∀ p ∈ t.properties,
    Names.last? role.target.memberName (role.target.memberName p.name)
        (t.properties.map (·.name)) =
      Names.last? role.target.memberName (role.target.memberName p.name) (mergedNames records)

abbrev SameObject : Option Members → Option Members → Prop :=
  Option.Rel fun y z => ∀ k, y.lookup k = z.lookup k

/-- Objects of named values are the same just if each key has the same value last. -/
theorem same_ofPairs_iff (spell : String → String) (value : String → Datum) (ns ms : List String) :
    SameObject (some (.ofPairs (ns.map fun n => (spell n, value n))))
        (some (.ofPairs (ms.map fun n => (spell n, value n)))) ↔
      ∀ k, ((Names.last? spell k ns).map value).getD .undefined =
        ((Names.last? spell k ms).map value).getD .undefined := by
  simp only [← Members.read_ofPairs_map]
  constructor
  · rintro ⟨h⟩ k
    rw [Members.read, Members.read, h]
  · intro h
    exact .some fun k =>
      Members.lookup_eq_of_read_eq (Members.defined_ofPairs _) (Members.defined_ofPairs _) (h k)

theorem ofValues_of_forall {spell : String → String} {value : String → Option Datum}
    {v : String → Datum} {ns : List String} (h : ∀ n ∈ ns, value n = some (v n)) :
    ofValues spell value ns = some (.ofPairs (ns.map fun n => (spell n, v n))) := by
  have hall : ∀ n ∈ ns, value n ≠ none := fun n hn => by simp [h n hn]
  rw [ofValues, if_pos hall]
  refine congrArg (fun pairs => some (Members.ofPairs pairs)) (List.map_congr_left fun n hn => ?_)
  rw [h n hn, Option.getD_some]

/-- More names make no difference where they have no value, and where the last one of a spelling is the
same. -/
theorem same_ofValues {spell : String → String} {value : String → Option Datum}
    {ns ms : List String} (hmore : ∀ n ∈ ns, n ∈ ms)
    (habsent : ∀ m ∈ ms, m ∉ ns → value m = some .undefined)
    (hlast : ∀ n ∈ ns, Names.last? spell (spell n) ns = Names.last? spell (spell n) ms) :
    SameObject (ofValues spell value ns) (ofValues spell value ms) := by
  by_cases hall : ∀ n ∈ ns, value n ≠ none
  · have hall' : ∀ m ∈ ms, value m ≠ none := by
      intro m hm
      by_cases hn : m ∈ ns
      · exact hall m hn
      · simp [habsent m hm hn]
    rw [ofValues, ofValues, if_pos hall, if_pos hall', same_ofPairs_iff]
    intro k
    cases hk : Names.last? spell k ns with
    | some n =>
      obtain ⟨hn, rfl⟩ := Names.mem_of_last? hk
      rw [← hlast n hn, hk]
    | none =>
      cases hk' : Names.last? spell k ms with
      | none => rfl
      | some m =>
        obtain ⟨hm, hspell⟩ := Names.mem_of_last? hk'
        have hn : m ∉ ns := fun hn => Names.last?_eq_none_iff.1 hk m hn hspell
        simp [habsent m hm hn]
  · have hall' : ¬ ∀ m ∈ ms, value m ≠ none := fun h => hall fun n hn => h n (hmore n hn)
    rw [ofValues, ofValues, if_neg hall, if_neg hall']
    exact .none

def plain : Runtime where
  mapper _ d := d
  parseDate d := d
  formatDate _ d := d
  isDateText _ _ := true

theorem plain_run (c : Change) : c.run plain = id := by
  cases c <;> rfl

theorem converted_plain (v : Value) (items : List Datum) :
    s.converted role plain v (.array items) = some (.array items) := by
  simp [converted, Datum.isNull, Conversion.run, Datum.items?, plain_run]

/-- Arrays under some keys, of which one can be told from the others. -/
def probe (marked : String) (keys : List String) : Members :=
  keys.map fun k => (k, .array (if k = marked then [.null] else []))

theorem lookup_probe (marked : String) (keys : List String) (k : String) :
    (probe marked keys).lookup k =
      if k ∈ keys then some (.array (if k = marked then [.null] else [])) else none := by
  induction keys with
  | nil => rfl
  | cons a keys ih =>
    rw [probe, List.map_cons, Assoc.lookup_cons, ← probe, ih]
    by_cases hk : k = a
    · simp [hk]
    · simp [hk]

theorem has_probe {marked : String} {keys : List String} {k : String} :
    (probe marked keys).has k = true ↔ k ∈ keys := by
  rw [Members.has, lookup_probe]
  split_ifs with h <;> simp [h]

theorem probe_defined (marked : String) (keys : List String) : (probe marked keys).Defined := by
  intro k
  rw [lookup_probe]
  split_ifs <;> simp

theorem probe_shaped (marked : String) (f : Facet) (t : TypeDecl) :
    t.Shaped f (probe marked (t.properties.map fun p => f.memberName p.name)) where
  required n hn := by
    obtain ⟨p, hp, -, rfl⟩ := TypeDecl.mem_requiredNames.1 hn
    exact has_probe.2 (List.mem_map_of_mem hp)
  declared _ k hk := List.mem_map.1 (has_probe.1 hk)

/-- What is read under a name from a probe with the keys of a record. -/
def probed (role : Role) (t : TypeDecl) (marked n : String) : Datum :=
  (probe marked (t.properties.map fun p => role.source.memberName p.name)).read
    (role.source.memberName n)

theorem probed_eq {t : TypeDecl} {p : Property} (hp : p ∈ t.properties) {marked n : String}
    (h : role.source.memberName n = role.source.memberName p.name) :
    probed role t marked n =
      .array (if role.source.memberName n = marked then [.null] else []) := by
  have hmem : role.source.memberName n ∈ t.properties.map fun p => role.source.memberName p.name :=
    List.mem_map.2 ⟨p, hp, h.symm⟩
  rw [probed, Members.read, lookup_probe, if_pos hmem, Option.getD_some]

theorem eq_of_probed_eq (hsource : role.source = .wire) {t : TypeDecl} {p : Property}
    (hp : p ∈ t.properties) {n : String}
    (h : probed role t p.name p.name = probed role t p.name n) : n = p.name := by
  have hname : ∀ m, role.source.memberName m = m := fun m => by rw [hsource]; rfl
  by_contra hne
  rw [probed_eq hp rfl, if_pos (hname _)] at h
  by_cases hdeclared : ∃ q ∈ t.properties, q.name = n
  · obtain ⟨q, hq, rfl⟩ := hdeclared
    rw [probed_eq hq rfl, hname, if_neg hne] at h
    cases h
  · have hmissing : n ∉ t.properties.map fun p => role.source.memberName p.name := by
      intro hn
      obtain ⟨q, hq, hqn⟩ := List.mem_map.1 hn
      exact hdeclared ⟨q, hq, (hname _).symm.trans hqn⟩
    rw [probed.eq_def role t p.name n, Members.read, lookup_probe, hname, if_neg hmissing] at h
    cases h

theorem propertyValue_probe (marked : String) (keys : List String) (p : Property) :
    s.propertyValue role plain (probe marked keys) p =
      some ((probe marked keys).read (role.source.memberName p.name)) := by
  rw [propertyValue, Members.read, lookup_probe]
  split_ifs <;> simp_all [Datum.isUndefined, converted_plain]

section Merged

variable {union : String} {each : Bool} {members : List String} {fields : List Field}
  (hmerge : (s.mergeMembers union role each members).result = .ok (.merge fields))
  (hf : ∀ t ∈ s.collectRecords members, ∀ p ∈ t.properties, Naming.Faithful p.name)

include hmerge in
/-- The table behind a merged object, and the absence of map clauses. -/
theorem mergeMembers_table :
    (∀ t ∈ s.collectRecords members, t.mapClause = none) ∧
    ∃ table : List (String × Field), fields = table.map Prod.snd ∧
      table.map Prod.fst = mergedNames (s.collectRecords members) ∧
      (∀ e ∈ table, ∃ t ∈ s.collectRecords members, ∃ p ∈ t.properties,
        e = (p.name, s.mergedField role p)) ∧
      ∀ p ∈ (s.collectRecords members).flatMap (·.properties),
        table.lookup p.name = some (s.mergedField role p) := by
  unfold mergeMembers at hmerge
  simp only at hmerge
  split_ifs at hmerge with hc
  · simp at hmerge
  · obtain ⟨fs, hfs, ha⟩ := Journal.bind_result_ok.1 hmerge
    obtain ⟨table, htable, hnames, hentries, -, hfound⟩ := mergeFields_ok hfs
    obtain rfl : fs = fields := by simpa using ha
    refine ⟨fun t ht => ?_, table, htable, hnames, fun e he => ?_, hfound⟩
    · by_contra hopen
      refine hc ?_
      simp only [Bool.or_eq_true, List.any_eq_true]
      exact .inr ⟨t, ht, Option.isSome_iff_ne_none.2 hopen⟩
    · rcases hentries e he with hold | ⟨p, hp, he⟩
      · cases hold
      · obtain ⟨t, ht, hp⟩ := List.mem_flatMap.1 hp
        exact ⟨t, ht, p, hp, he⟩

include hmerge hf in
/-- The merged object and that of a record give the same values to names. -/
theorem construct_merged (env : Runtime) {t : TypeDecl} (ht : t ∈ s.collectRecords members)
    {x : Members} (hx : t.Shaped role.source x) (hdefined : x.Defined) :
    ∃ value : String → Option Datum,
      (∀ u ∈ s.collectRecords members, ∀ p ∈ u.properties,
        value p.name = s.propertyValue role env x p) ∧
      (s.recordMapper role t).construct env x =
        ofValues role.target.memberName value (t.properties.map (·.name)) ∧
      (Action.merge fields).construct env x =
        ofValues role.target.memberName value (mergedNames (s.collectRecords members)) := by
  obtain ⟨hclosed, table, rfl, hnames, hentries, hfound⟩ := mergeMembers_table hmerge
  have hvalue : ∀ u ∈ s.collectRecords members, ∀ p ∈ u.properties,
      s.namedValue role env x ((s.collectRecords members).flatMap (·.properties)) p.name =
        s.propertyValue role env x p := by
    intro u hu p hp
    refine namedValue_eq (fun a ha b hb hab => ?_) (List.mem_flatMap.2 ⟨u, hu, hp⟩)
    have hfield := hfound a ha
    rw [hab, hfound b hb] at hfield
    exact (Option.some.inj hfield).symm
  refine ⟨_, hvalue, ?_, ?_⟩
  · rw [construct_recordMapper (hclosed t ht)]
    refine map_ofPairs_mapM ?_
    intro p hp
    rw [hvalue t ht p hp]
    refine propertyField_run (hf t ht p hp) _ fun habsent => ?_
    -- a required property is there, and nothing that is there is undefined
    by_contra hrequired
    have hthere := hx.required p.name (TypeDecl.mem_requiredNames.2
      ⟨p, hp, by simpa [Value.isRequired] using hrequired, rfl⟩)
    obtain ⟨d, hd⟩ := Members.has_iff.1 hthere
    have hundefined : d = .undefined := by
      simpa [Members.read, hd, Datum.isUndefined_iff] using habsent
    exact hdefined _ (hundefined ▸ hd)
  · rw [← hnames, Action.construct, List.mapM_map]
    refine map_ofPairs_mapM ?_
    intro e he
    obtain ⟨u, hu, p, hp, rfl⟩ := hentries e he
    rw [hvalue u hu p hp]
    exact mergedField_run (hf u hu p hp)

theorem names_subset {records : List TypeDecl} {t : TypeDecl} (ht : t ∈ records) :
    ∀ n ∈ t.properties.map (·.name), n ∈ mergedNames records := by
  intro n hn
  obtain ⟨p, hp, rfl⟩ := List.mem_map.1 hn
  exact mem_mergedNames.2 ⟨t, ht, p, hp, rfl⟩

include hmerge hf in
/-- On a probe, the last name with a spelling among those of a record and the last one among all give
the same value. -/
theorem read_last_eq {t : TypeDecl} (ht : t ∈ s.collectRecords members)
    (hsame : ∀ env x, t.Shaped role.source x → x.Defined →
      SameObject ((s.recordMapper role t).construct env x) ((Action.merge fields).construct env x))
    (marked k : String) :
    ((Names.last? role.target.memberName k (t.properties.map (·.name))).map
        (probed role t marked)).getD .undefined =
      ((Names.last? role.target.memberName k (mergedNames (s.collectRecords members))).map
        (probed role t marked)).getD .undefined := by
  have hshaped := probe_shaped marked role.source t
  have hdefined := probe_defined marked (t.properties.map fun p => role.source.memberName p.name)
  obtain ⟨value, hvalue, hown, hmerged⟩ := construct_merged hmerge hf plain ht hshaped hdefined
  have hall : ∀ n ∈ mergedNames (s.collectRecords members),
      value n = some (probed role t marked n) := by
    intro n hn
    obtain ⟨u, hu, p, hp, rfl⟩ := mem_mergedNames.1 hn
    rw [hvalue u hu p hp, propertyValue_probe, probed]
  rw [ofValues_of_forall hall] at hmerged
  rw [ofValues_of_forall fun n hn => hall n (names_subset ht n hn)] at hown
  have h := hsame plain _ hshaped hdefined
  rw [hown, hmerged, same_ofPairs_iff] at h
  exact h k

include hmerge hf in
theorem mergeable_of_same
    (hsame : ∀ t ∈ s.collectRecords members, ∀ env x, t.Shaped role.source x → x.Defined →
      SameObject ((s.recordMapper role t).construct env x)
        ((Action.merge fields).construct env x)) : Mergeable role (s.collectRecords members) where
  unread t ht p hp n hn hspelling := by
    cases hdirection : role.direction with
    | wireToInternal =>
      -- a name is its own spelling
      have hsource : role.source = .wire := congrArg Direction.source hdirection
      rw [hsource] at hspelling
      exact TypeDecl.declares_iff.2 ⟨p, hp, hspelling.symm⟩
    | internalToWire =>
      have htarget : role.target = .wire := congrArg Direction.target hdirection
      by_contra hother
      -- the record itself writes nothing under that name
      have hnone : Names.last? role.target.memberName n (t.properties.map (·.name)) = none := by
        refine Names.last?_eq_none_iff.2 fun m hm hmn => hother ?_
        obtain ⟨q, hq, rfl⟩ := List.mem_map.1 hm
        rw [htarget] at hmn
        exact TypeDecl.declares_iff.2 ⟨q, hq, hmn⟩
      have hread := read_last_eq hmerge hf ht (hsame t ht) "" n
      rw [hnone, htarget, Names.last?_wire hn, Option.map_some, Option.getD_some,
        probed_eq hp hspelling] at hread
      cases hread
  last t ht p hp := by
    have hown : p.name ∈ t.properties.map (·.name) := List.mem_map_of_mem hp
    have hmerged := names_subset ht _ hown
    cases hdirection : role.direction with
    | wireToInternal =>
      have hsource : role.source = .wire := congrArg Direction.source hdirection
      obtain ⟨n, hn⟩ := Names.exists_last? role.target.memberName hown
      obtain ⟨m, hm⟩ := Names.exists_last? role.target.memberName hmerged
      -- mark the value under the last name of the record, and see where it comes from
      have hread := read_last_eq hmerge hf ht (hsame t ht) n (role.target.memberName p.name)
      obtain ⟨q, hq, rfl⟩ := List.mem_map.1 (Names.mem_of_last? hn).1
      rw [hn, hm, Option.map_some, Option.map_some, Option.getD_some, Option.getD_some] at hread
      rw [hn, hm, eq_of_probed_eq hsource hq hread]
    | internalToWire =>
      have htarget : role.target = .wire := congrArg Direction.target hdirection
      rw [htarget]
      exact (Names.last?_wire hown).trans (Names.last?_wire hmerged).symm

include hmerge hf in
/-- The merged object is that of each record just if the spellings of the names allow it. -/
theorem merged_same_iff :
    (∀ t ∈ s.collectRecords members, ∀ env x, t.Shaped role.source x → x.Defined →
      SameObject ((s.recordMapper role t).construct env x)
        ((Action.merge fields).construct env x)) ↔
      Mergeable role (s.collectRecords members) := by
  constructor
  · exact mergeable_of_same hmerge hf
  · intro h t ht env x hx hdefined
    obtain ⟨value, hvalue, hown, hmerged⟩ := construct_merged hmerge hf env ht hx hdefined
    rw [hown, hmerged]
    have hclosed := (mergeMembers_table hmerge).1 t ht
    refine same_ofValues (names_subset ht) (fun n hn hother => ?_) fun n hn => ?_
    · obtain ⟨u, hu, q, hq, rfl⟩ := mem_mergedNames.1 hn
      -- what is not declared is not there, whatever its spelling
      have hnone : x.lookup (role.source.memberName q.name) = none := by
        rw [Option.eq_none_iff_forall_ne_some]
        intro d hd
        obtain ⟨p, hp, hspelling⟩ := hx.declared hclosed _ (Members.has_iff.2 ⟨d, hd⟩)
        obtain ⟨r, hr, hname⟩ := TypeDecl.declares_iff.1 (h.unread t ht p hp _ hn hspelling.symm)
        exact hother (List.mem_map.2 ⟨r, hr, hname⟩)
      rw [hvalue u hu q hq, propertyValue, Members.read, hnone]
      rfl
    · obtain ⟨p, hp, rfl⟩ := List.mem_map.1 hn
      exact h.last t ht p hp

end Merged

theorem mergeable_of_distinct {records : List TypeDecl}
    (h : ∀ m ∈ mergedNames records, ∀ n ∈ mergedNames records,
      Naming.propertyName m = Naming.propertyName n → m = n) : Mergeable role records := by
  have hspell : ∀ (f : Facet), ∀ m ∈ mergedNames records, ∀ n ∈ mergedNames records,
      f.memberName m = f.memberName n → m = n := by
    intro f m hm n hn hmn
    cases f with
    | internal => exact h m hm n hn hmn
    | wire => exact hmn
  have hlast : ∀ ns, (∀ n ∈ ns, n ∈ mergedNames records) → ∀ n ∈ ns,
      Names.last? role.target.memberName (role.target.memberName n) ns = some n := by
    intro ns hsub n hn
    obtain ⟨m, hm⟩ := Names.exists_last? role.target.memberName hn
    obtain ⟨hmem, hmn⟩ := Names.mem_of_last? hm
    exact hm.trans (congrArg some (hspell _ m (hsub m hmem) n (hsub n hn) hmn))
  refine ⟨fun t ht p hp n hn hspelling => ?_, fun t ht p hp => ?_⟩
  · have hp' := names_subset ht p.name (List.mem_map_of_mem hp)
    exact TypeDecl.declares_iff.2 ⟨p, hp, (hspell _ n hn _ hp' hspelling).symm⟩
  · have hp' : p.name ∈ t.properties.map (·.name) := List.mem_map_of_mem hp
    exact (hlast _ (names_subset ht) _ hp').trans
      (hlast _ (fun _ h => h) _ (names_subset ht _ hp')).symm

def optionalText (name : String) : Property where
  name := name
  value := { base := .primitive .string none, isOptional := true }

/-- Two records without a mark, the second with a key to choose. -/
def choices (key : String) : Service where
  title := "choices"
  types :=
    [{ name := "page", properties := [optionalText "page_size"] },
     { name := "view"
       properties :=
         [optionalText key,
          { name := "opened_at"
            value := { base := .primitive .dateTime none, isOptional := true } }] }]
  unions := [either]

def choiceFields (key : String) : List Field :=
  ((choices key).types.flatMap (·.properties)).map ((choices key).mergedField .serverInbound)

theorem choices_mapper : ((choices "pageSize").unionMapper .serverInbound either).result =
    .ok ⟨⟨"either", .serverInbound⟩, .chain [.nested (.test .isNoArray)
      [.leaf (isObject .whole) [.merge (choiceFields "pageSize")]]]⟩ := by
  cbv

theorem choices_faithful {key : String} (h : Naming.denoted? key = some key) :
    ∀ t ∈ (choices key).types, ∀ p ∈ t.properties, Naming.Faithful p.name := by
  have hsize : Naming.denoted? "page_size" = some "page_size" := by decide
  have hopened : Naming.denoted? "opened_at" = some "opened_at" := by decide
  simp only [choices, optionalText, List.forall_mem_cons]
  exact ⟨⟨Naming.faithful_of_denoted? hsize, List.forall_mem_nil _⟩,
    ⟨Naming.faithful_of_denoted? h, Naming.faithful_of_denoted? hopened, List.forall_mem_nil _⟩,
    List.forall_mem_nil _⟩

theorem choices_collected (key : String) :
    (choices key).collectRecords ["page", "view"] = (choices key).types := by
  cbv

theorem choices_same :
    ((choices "width").mergeMembers "either" .serverInbound false ["page", "view"]).result =
      .ok (.merge (choiceFields "width")) ∧
    (∀ t ∈ (choices "width").collectRecords ["page", "view"], ∀ p ∈ t.properties,
      Naming.Faithful p.name) ∧
    ∀ t ∈ (choices "width").collectRecords ["page", "view"], ∀ env x, t.Shaped .wire x → x.Defined →
      SameObject (((choices "width").recordMapper .serverInbound t).construct env x)
        ((Action.merge (choiceFields "width")).construct env x) := by
  have hmerge : ((choices "width").mergeMembers "either" .serverInbound false
      ["page", "view"]).result = .ok (.merge (choiceFields "width")) := by cbv
  have hf : ∀ t ∈ (choices "width").collectRecords ["page", "view"], ∀ p ∈ t.properties,
      Naming.Faithful p.name := by
    rw [choices_collected]
    exact choices_faithful (by decide)
  refine ⟨hmerge, hf, (merged_same_iff hmerge hf).2 ?_⟩
  rw [choices_collected]
  exact mergeable_of_distinct (by decide)

/-- The value of the first record is overwritten by the one that the second would have. -/
theorem choices_lose : (choices "pageSize").check.defects = [] ∧
    ((choices "pageSize").unionMapper .serverInbound either).result =
      .ok ⟨⟨"either", .serverInbound⟩, .chain [.nested (.test .isNoArray)
        [.leaf (isObject .whole) [.merge (choiceFields "pageSize")]]]⟩ ∧
    ∃ t ∈ (choices "pageSize").collectRecords ["page", "view"],
      t.Shaped .wire [("page_size", .string "a")] ∧
      Members.Defined [("page_size", .string "a")] ∧
      ∀ env, ((choices "pageSize").recordMapper .serverInbound t).construct env
          [("page_size", .string "a")] = some [("pageSize", .string "a")] ∧
        (Action.merge (choiceFields "pageSize")).construct env [("page_size", .string "a")] =
          some [] := by
  rw [choices_collected]
  have hshaped : TypeDecl.Shaped { name := "page", properties := [optionalText "page_size"] } .wire
      [("page_size", .string "a")] := by
    refine ⟨by decide, fun _ k hk => ⟨optionalText "page_size", List.mem_cons_self, ?_⟩⟩
    obtain ⟨d, hd⟩ := Members.has_iff.1 hk
    exact (congrArg Prod.fst (List.mem_singleton.1 (Assoc.mem_of_lookup hd))).symm
  have hdefined : Members.Defined [("page_size", .string "a")] := by
    intro k hk
    cases List.mem_singleton.1 (Assoc.mem_of_lookup hk)
  have hsound : (choices "pageSize").check.defects = [] := by decide +kernel
  refine ⟨hsound, choices_mapper, _, List.mem_cons_self, hshaped, hdefined, fun env => ⟨rfl, ?_⟩⟩
  cbv

end Service

end DtoGen
