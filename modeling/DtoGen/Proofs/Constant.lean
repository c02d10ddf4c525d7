import DtoGen.Proofs.Presence
import Mathlib.Data.List.Nodup

namespace DtoGen

namespace Assoc

variable {α : Type}

theorem mem_put {key : String} {value : α} {t : List (String × α)} {e : String × α}
    (h : e ∈ put key value t) : e = (key, value) ∨ e ∈ t := by
  induction t with
  | nil => simpa [put] using h
  | cons kv rest ih =>
    obtain ⟨k, v⟩ := kv
    by_cases hk : k = key
    · subst hk
      rcases List.mem_cons.1 (by simpa [put] using h) with rfl | h
      · exact Or.inl rfl
      · exact Or.inr (List.mem_cons_of_mem _ h)
    · simp only [put, hk, if_false, List.mem_cons] at h
      rcases h with rfl | h
      · exact Or.inr (by simp)
      · exact (ih h).imp_right (List.mem_cons_of_mem _)

theorem mem_of_mem_ofList {pairs : List (String × α)} {e : String × α} (h : e ∈ ofList pairs) :
    e ∈ pairs := by
  have hfold : ∀ (t : List (String × α)),
      e ∈ pairs.foldl (fun t p => put p.1 p.2 t) t → e ∈ t ∨ e ∈ pairs := by
    clear h
    induction pairs with
    | nil => exact fun t h => Or.inl h
    | cons p ps ih =>
      intro t h
      rcases ih _ h with h | h
      · rcases mem_put h with rfl | h
        · exact Or.inr (by simp)
        · exact Or.inl h
      · exact Or.inr (List.mem_cons_of_mem p h)
  simpa using hfold [] h

/-- Of elements under different keys each is found under its own. -/
theorem lookup_map_of_mem {β : Type} {key : β → String} {value : β → α} {bs : List β} {b : β}
    (hinj : ∀ c ∈ bs, key c = key b → c = b) (hb : b ∈ bs) :
    (bs.map fun c => (key c, value c)).lookup (key b) = some (value b) := by
  induction bs with
  | nil => cases hb
  | cons c cs ih =>
    rw [List.map_cons, List.lookup_cons]
    by_cases hc : key b = key c
    · obtain rfl := hinj c List.mem_cons_self hc.symm
      simp
    · have hne : (key b == key c) = false := beq_eq_false_iff_ne.2 hc
      have hrest := (List.mem_cons.1 hb).resolve_left fun h => hc (by rw [h])
      rw [hne]
      exact ih (fun d hd => hinj d (List.mem_cons_of_mem c hd)) hrest

end Assoc

namespace TypeDecl

theorem mem_constantsOf {ps : List Property} {name : String} {c : Literal}
    (h : (name, c) ∈ constantsOf ps) : ∃ p ∈ ps, p.name = name ∧ p.value.constant? = some c := by
  obtain ⟨p, hp, he⟩ := List.mem_filterMap.1 (Assoc.mem_of_mem_ofList h)
  obtain ⟨l, hl, he⟩ := Option.map_eq_some_iff.1 he
  obtain ⟨rfl, rfl⟩ := Prod.mk.inj he
  exact ⟨p, hp, rfl, hl⟩

theorem constants_lookup {t : TypeDecl} {name : String} {c : Literal}
    (h : t.constants.lookup name = some c) :
    ∃ p ∈ t.properties, p.name = name ∧ p.value.constant? = some c := by
  obtain ⟨l, r, he, -⟩ := List.lookup_eq_some_iff.1 h
  have hmem : (name, c) ∈ t.constants := by simp [he]
  exact mem_constantsOf hmem

def Unrepeated (t : TypeDecl) : Prop := (t.properties.map (·.name)).Nodup

theorem lookup_map_properties {ps : List Property} (hn : (ps.map (·.name)).Nodup)
    (f : Property → Datum) {p : Property} (hp : p ∈ ps) :
    (ps.map fun q => (q.name, f q)).lookup p.name = some (f p) :=
  Assoc.lookup_map_of_mem (fun _ hq hname => List.inj_on_of_nodup_map hn hq hp hname) hp

/-- Any choice of values that respects the constants makes an instance. -/
theorem instance_of_choice {t : TypeDecl} (hn : t.Unrepeated) (f : Property → Datum)
    (hf : ∀ p ∈ t.properties, ∀ c, p.value.constant? = some c → p.value.Holds c (f p)) :
    t.Instance (t.properties.map fun p => (p.name, f p)) where
  required n hm := by
    obtain ⟨p, hp, -, rfl⟩ := mem_requiredNames.1 hm
    exact Members.has_iff.2 ⟨f p, lookup_map_properties hn f hp⟩
  declared _ k hk := by
    obtain ⟨d, hd⟩ := Members.has_iff.1 hk
    obtain ⟨l, r, he, -⟩ := List.lookup_eq_some_iff.1 hd
    have hmem : (k, d) ∈ t.properties.map fun p => (p.name, f p) := by simp [he]
    obtain ⟨p, hp, he⟩ := List.mem_map.1 hmem
    exact ⟨p, hp, (Prod.mk.inj he).1⟩
  constants p hp c hc d hd := by
    rw [lookup_map_properties hn f hp] at hd
    obtain rfl := Option.some.inj hd
    exact hf p hp c hc

def sample (p : Property) : Datum :=
  match p.value.constant? with
  | some c => if p.value.isArray then .array [] else c.datum
  | none => .null

theorem holds_sample {p : Property} {c : Literal} (h : p.value.constant? = some c) :
    p.value.Holds c (sample p) := by
  right
  cases ha : p.value.isArray <;> simp [sample, h, ha]

/-- Without repeated names an instance may have any value that one property allows. -/
theorem exists_instance {t : TypeDecl} (hn : t.Unrepeated) {p : Property} (hp : p ∈ t.properties)
    (d : Datum) (hd : ∀ c, p.value.constant? = some c → p.value.Holds c d) :
    ∃ x, t.Instance x ∧ x.lookup p.name = some d := by
  refine ⟨_, instance_of_choice hn (fun q => if q = p then d else sample q) ?_, ?_⟩
  · intro q hq c hc
    by_cases he : q = p
    · subst he
      simpa using hd c hc
    · simpa [he] using holds_sample hc
  · simpa using lookup_map_properties hn (fun q => if q = p then d else sample q) hp

end TypeDecl

namespace Discrimination

/-- A test for a constant under a name succeeds on every instance of a record and on no instance of
the others. -/
def Decides (t : TypeDecl) (others : List TypeDecl) (name : String) (c : Literal) : Prop :=
  (∀ x, t.Instance x → ∃ d, x.lookup name = some d ∧ d.strictEq c.datum = true) ∧
    ∀ o ∈ others, ∀ x, o.Instance x → ∀ d, x.lookup name = some d → d.strictEq c.datum = false

/-- The constant stands by itself in the record, it is a value equal to itself, and no other record
has null in its place. -/
structure Decisive (t : TypeDecl) (others : List TypeDecl) (name : String) (c : Literal) : Prop where
  alone : ∃ p ∈ t.properties, p.name = name ∧ p.value.isRequired = true ∧
    p.value.constant? = some c ∧ p.value.isArray = false ∧ (p.value.isNullable = true → c = .null)
  number : c.isNan = false
  null : c = .null → ∀ o ∈ others, ∀ p ∈ o.properties, p.name = name →
    p.value.constant?.isSome = true → p.value.isNullable = false

theorem mem_constantMarks {t : TypeDecl} {others : List TypeDecl} {name : String} {c : Literal}
    (h : .constant name c ∈ constantMarks t others) :
    (∃ p ∈ t.properties, p.name = name ∧ p.value.isRequired = true ∧
        p.value.constant? = some c) ∧
      ∀ o ∈ others, o.mapClause = none ∧ excludedBy name c o = true := by
  unfold constantMarks at h
  split_ifs at h with hopen
  · simp at h
  · obtain ⟨⟨n, l⟩, hmem, he⟩ := List.mem_map.1 h
    obtain ⟨rfl, rfl⟩ := Mark.constant.inj he
    obtain ⟨hmem, hall⟩ := List.mem_filter.1 hmem
    obtain ⟨p, hp, hname, hc⟩ := TypeDecl.mem_constantsOf hmem
    obtain ⟨hp, hreq⟩ := List.mem_filter.1 hp
    refine ⟨⟨p, hp, hname, hreq, hc⟩, fun o ho => ⟨?_, List.all_eq_true.1 hall o ho⟩⟩
    rw [← isOpen_eq_false_iff]
    by_contra hc
    exact hopen (List.any_eq_true.2 ⟨o, ho, by simpa using hc⟩)

theorem constant_mark {s : Service} {member : String} {others : List String} {t : TypeDecl}
    (ht : s.type? member = some t) {name : String} {c : Literal}
    (hm : .constant name c ∈ marks s member others) :
    .constant name c ∈ constantMarks t (records s others) := by
  simp only [marks, ht, List.mem_append] at hm
  rcases hm with (hm | hm) | hm
  · obtain ⟨n, he, -⟩ := mem_propertyMarks hm
    cases he
  · exact hm
  · cases (mem_setMarks_iff.1 hm).2

/-- A record that a constant excludes has no such name, or holds another constant there. -/
theorem excludedBy_iff {name : String} {c : Literal} {o : TypeDecl} :
    excludedBy name c o = true ↔
      o.declares name = false ∨ ∃ l, o.constants.lookup name = some l ∧ c.strictEq l = false := by
  unfold excludedBy
  cases o.constants.lookup name <;> simp

theorem strictEq_array (items : List Datum) (c : Literal) :
    (Datum.array items).strictEq c.datum = false := by
  simp [Datum.strictEq]

theorem strictEq_null_iff {c : Literal} : Datum.null.strictEq c.datum = true ↔ c = .null := by
  cases c <;> simp [Literal.datum, Datum.strictEq]

theorem holds_strictEq_false {v : Value} {l c : Literal} {d : Datum} (h : v.Holds l d)
    (hne : c.strictEq l = false) (hnull : c = .null → v.isNullable = false) :
    d.strictEq c.datum = false := by
  rcases h with ⟨hn, rfl⟩ | h
  · rw [← Bool.not_eq_true, strictEq_null_iff]
    intro hc
    simp [hnull hc] at hn
  · split_ifs at h
    · obtain ⟨items, rfl, -⟩ := h
      exact strictEq_array items c
    · subst h
      rw [Literal.strictEq_datum, Literal.strictEq_comm, hne]

theorem decides_of_decisive {t : TypeDecl} {others : List TypeDecl} {name : String} {c : Literal}
    (hm : .constant name c ∈ constantMarks t others) (h : Decisive t others name c) :
    Decides t others name c := by
  refine ⟨fun x hx => ?_, fun o ho x hx d hd => ?_⟩
  · obtain ⟨p, hp, rfl, hreq, hc, harr, hnull⟩ := h.alone
    obtain ⟨d, hd⟩ := Members.has_iff.1
      (hx.required p.name (TypeDecl.mem_requiredNames.2 ⟨p, hp, hreq, rfl⟩))
    have hdatum : d = c.datum := by
      rcases hx.constants p hp c hc d hd with ⟨hn, rfl⟩ | hh
      · rw [hnull hn]
        rfl
      · simpa [harr] using hh
    refine ⟨d, hd, ?_⟩
    rw [hdatum, Literal.datum_strictEq_self, h.number]
    rfl
  · obtain ⟨hclosed, hex⟩ := (mem_constantMarks hm).2 o ho
    obtain ⟨p, hp, hname⟩ := hx.declared hclosed name (Members.has_iff.2 ⟨d, hd⟩)
    -- the other record declares the key, so it was excluded by a constant of its own
    have hdecl : o.declares name = true := TypeDecl.declares_iff.2 ⟨p, hp, hname⟩
    obtain hno | ⟨l, hl, hne⟩ := excludedBy_iff.1 hex
    · simp [hdecl] at hno
    · obtain ⟨q, hq, rfl, hql⟩ := TypeDecl.constants_lookup hl
      refine holds_strictEq_false (hx.constants q hq l hql d hd) hne fun hc => ?_
      exact h.null hc o ho q hq rfl (by simp [hql])

theorem decisive_of_decides {t : TypeDecl} {others : List TypeDecl} {name : String} {c : Literal}
    (hm : .constant name c ∈ constantMarks t others) (ht : t.Unrepeated)
    (hos : ∀ o ∈ others, o.Unrepeated) (h : Decides t others name c) :
    Decisive t others name c := by
  obtain ⟨⟨p, hp, rfl, hreq, hc⟩, -⟩ := mem_constantMarks hm
  -- whatever the property allows, some instance has it, and the test accepts it
  have haccept : ∀ d, p.value.Holds c d → d.strictEq c.datum = true := by
    intro d hd
    have hall : ∀ l, p.value.constant? = some l → p.value.Holds l d := by
      intro l hl
      obtain rfl : c = l := by simpa [hc] using hl
      exact hd
    obtain ⟨x, hx, hxd⟩ := TypeDecl.exists_instance ht hp d hall
    obtain ⟨e, he, heq⟩ := h.1 x hx
    obtain rfl : d = e := by simpa [hxd] using he
    exact heq
  have harr : p.value.isArray = false := by
    by_contra ha
    have harray : p.value.Holds c (.array []) := Or.inr (by simp [ha])
    simpa [strictEq_array] using haccept _ harray
  refine ⟨⟨p, hp, rfl, hreq, hc, harr, fun hn => ?_⟩, ?_, fun hcn o ho q hq hname hqc => ?_⟩
  · exact strictEq_null_iff.1 (haccept .null (Or.inl ⟨hn, rfl⟩))
  · have hself := haccept c.datum (Or.inr (by simp [harr]))
    simpa [Literal.datum_strictEq_self] using hself
  · by_contra hn
    have hall : ∀ l, q.value.constant? = some l → q.value.Holds l .null :=
      fun l _ => Or.inl ⟨by simpa using hn, rfl⟩
    obtain ⟨x, hx, hxn⟩ := TypeDecl.exists_instance (hos o ho) hq .null hall
    rw [hname] at hxn
    have hfalse := h.2 o ho x hx .null hxn
    simp [strictEq_null_iff.2 hcn] at hfalse

/-- The test of a mark by a constant tells the member from the others if the constant is decisive;
and where no record repeats a name, only then. -/
theorem constant_mark_decides_iff (s : Service) (member : String) (others : List String)
    (t : TypeDecl) (ht : s.type? member = some t) (name : String) (c : Literal)
    (hm : .constant name c ∈ marks s member others) :
    (Decisive t (records s others) name c → Decides t (records s others) name c) ∧
      (t.Unrepeated → (∀ o ∈ records s others, o.Unrepeated) →
        Decides t (records s others) name c → Decisive t (records s others) name c) :=
  ⟨decides_of_decisive (constant_mark ht hm), decisive_of_decides (constant_mark ht hm)⟩

/-- Two records under the same key, the first with a constant that may be null or not. -/
def tagged (nullable : Bool) : Service where
  title := "tagged"
  types :=
    [{ name := "a"
       properties :=
        [{ name := "kind"
           value := { base := .primitive .string (some (.string "a")), isNullable := nullable } }] },
     { name := "b"
       properties :=
        [{ name := "kind"
           value :=
            { base := .primitive .string (some (.string "b")), isOptional := true, isNullable := true } }] }]

theorem tagged_mark_decides : ∃ t, (tagged false).type? "a" = some t ∧
    .constant "kind" (.string "a") ∈ marks (tagged false) "a" ["b"] ∧
    Decides t (records (tagged false) ["b"]) "kind" (.string "a") := by
  have hm : .constant "kind" (.string "a") ∈ marks (tagged false) "a" ["b"] := by decide
  refine ⟨_, rfl, hm, (constant_mark_decides_iff _ _ _ _ rfl _ _ hm).1 ?_⟩
  refine ⟨⟨_, List.mem_singleton.2 rfl, ?_⟩, rfl, fun h => by cases h⟩
  decide

/-- A constant beside which null is allowed is used as a mark, and an instance with null fails it. -/
theorem nullable_tag_undecided : ∃ t, (tagged true).type? "a" = some t ∧
    .constant "kind" (.string "a") ∈ marks (tagged true) "a" ["b"] ∧
    ∃ x, t.Instance x ∧ ¬∃ d, x.lookup "kind" = some d ∧
      d.strictEq (Literal.string "a").datum = true := by
  obtain ⟨t, ht⟩ : ∃ t, (tagged true).type? "a" = some t := ⟨_, rfl⟩
  have hun : t.Unrepeated := by
    obtain rfl := Option.some.inj ht
    unfold TypeDecl.Unrepeated
    decide
  obtain ⟨p, hp, hname, hn⟩ : ∃ p ∈ t.properties, p.name = "kind" ∧ p.value.isNullable = true := by
    obtain rfl := Option.some.inj ht
    exact ⟨_, List.mem_singleton.2 rfl, rfl, rfl⟩
  obtain ⟨x, hx, hnull⟩ := TypeDecl.exists_instance hun hp .null fun c _ => Or.inl ⟨hn, rfl⟩
  rw [hname] at hnull
  refine ⟨t, ht, by decide, x, hx, ?_⟩
  rintro ⟨d, hd, heq⟩
  obtain rfl : Datum.null = d := by simpa [hnull] using hd
  cases strictEq_null_iff.1 heq

end Discrimination

end DtoGen
