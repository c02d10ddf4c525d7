import DtoGen.Artifact.Route
import DtoGen.Mapping.Record
import DtoGen.Proofs.Meets
import DtoGen.Proofs.Reachability

namespace DtoGen

def Conversion.calls (c : Conversion) : List String :=
  match c.change with
  | .mapper m => [m]
  | _ => []

/-- The conversions of a record mapper: those of its fields, then that of further members. -/
def RecordBody.expressions : RecordBody → List Expression
  | .empty => []
  | .literal fields => fields.map (·.expression)
  | .destructured _ fields rest => fields.map (·.expression) ++ rest.toList.map (·.converted)
  | .folded fold => [fold.converted]

def RecordBody.calls (b : RecordBody) : List String :=
  b.expressions.flatMap (·.conversion.calls)

def Action.calls : Action → List String
  | .convert c => c.calls
  | .merge fields => fields.flatMap (·.expression.conversion.calls)
  | _ => []

namespace Block

variable {α σ : Type}

mutual
def statements : Block α σ → List σ
  | .leaf _ body => body
  | .nested _ bs => statementsOf bs
def statementsOf : List (Block α σ) → List σ
  | [] => []
  | b :: bs => b.statements ++ statementsOf bs
end

theorem statementsOf_append (bs cs : List (Block α σ)) :
    statementsOf (bs ++ cs) = statementsOf bs ++ statementsOf cs := by
  induction bs with
  | nil => rfl
  | cons b bs ih => rw [List.cons_append, statementsOf, statementsOf, ih, List.append_assoc]

end Block

def Branching.calls (bs : List Branching) : List String :=
  (Block.statementsOf bs).flatMap Action.calls

def UnionBody.calls : UnionBody → List String
  | .switch _ cases => cases.map (·.mapper)
  | .chain bs => Branching.calls bs

namespace Branching

@[simp] theorem calls_nil : calls [] = [] := rfl

@[simp] theorem calls_append (bs cs : List Branching) : calls (bs ++ cs) = calls bs ++ calls cs := by
  rw [calls, Block.statementsOf_append, List.flatMap_append]
  rfl

@[simp] theorem calls_leaf (c : Condition Test) (a : Action) (bs : List Branching) :
    calls (.leaf c [a] :: bs) = a.calls ++ calls bs := rfl

@[simp] theorem calls_nested (c : Condition Test) (inner : List Branching) :
    calls [.nested c inner] = calls inner := by
  simp [calls, Block.statementsOf, Block.statements]

end Branching

theorem Conversion.mentions_eq (c : Conversion) : c.mentions = c.calls.map .mapper := by
  unfold mentions calls
  cases c.change <;> rfl

/-- A record mapper mentions the helper that drops absent members, what its conversions mention, and
the type that a pass over further members ends in. -/
theorem RecordBody.mem_mentions {b : RecordBody} {m : Mention} (h : m ∈ b.mentions) :
    m = .helper .compact ∨ (∃ e ∈ b.expressions, m ∈ e.mentions) ∨
      ∃ f : Fold, (b = .folded f ∨ ∃ cs fs, b = .destructured cs fs (some f)) ∧
        m = .declared f.facet f.spelling := by
  have hfields : ∀ fields : List Field, m ∈ fields.flatMap Field.mentions →
      ∃ e ∈ fields.map (·.expression), m ∈ e.mentions := by
    intro fields hm
    obtain ⟨f, hf, hm⟩ := List.mem_flatMap.1 hm
    exact ⟨f.expression, List.mem_map_of_mem hf, hm⟩
  cases b with
  | empty => cases h
  | literal fields =>
    rcases List.mem_cons.1 h with rfl | h
    · exact .inl rfl
    · exact .inr (.inl (hfields fields h))
  | destructured captures fields rest =>
    rcases List.mem_append.1 h with h | h
    · rcases List.mem_cons.1 h with rfl | h
      · exact .inl rfl
      · obtain ⟨e, he, hm⟩ := hfields fields h
        exact .inr (.inl ⟨e, List.mem_append_left _ he, hm⟩)
    · cases rest with
      | none => cases h
      | some f =>
        rcases List.mem_append.1 h with h | h
        · exact .inr (.inl ⟨f.converted, List.mem_append_right _ List.mem_cons_self, h⟩)
        · exact .inr (.inr ⟨f, .inr ⟨captures, fields, rfl⟩, List.mem_singleton.1 h⟩)
  | folded f =>
    rcases List.mem_append.1 h with h | h
    · exact .inr (.inl ⟨f.converted, List.mem_cons_self, h⟩)
    · exact .inr (.inr ⟨f, .inl rfl, List.mem_singleton.1 h⟩)

/-- The integers that are written out where a value has a constant. -/
def Value.integers (v : Value) : List Int := (v.constant?.map Literal.integers).getD []

theorem Value.integers_eq {v : Value} {l : Literal} (h : v.constant? = some l) :
    v.integers = l.integers := by
  rw [Value.integers, h, Option.map_some, Option.getD_some]

/-- Why a union can have no mapper. -/
inductive RenderError.NoMapper (union : String) : RenderError → Prop where
  | indistinct (members : List String) : NoMapper union (.indistinct union members)
  | missingConstant (member discriminator : String) :
    NoMapper union (.missingConstant union member discriminator)

namespace Service

variable {s : Service} {role : Role} {roots : List Value} {P : Mention → Prop}

theorem resolve_of_name? {v : Value} {n : String} (h : v.name? = some n) :
    s.resolve v = s.resolveName n := by
  cases hb : v.base with
  | primitive k l => simp [Value.name?, hb] at h
  | named m =>
    obtain rfl : m = n := by simpa [Value.name?, hb] using h
    simp only [resolve, hb]

/-- A value is converted by the mapper of what it refers to, if by any. -/
theorem mem_calls_conversion {v : Value} {c : String} (h : c ∈ (s.conversion role v).calls) :
    ∃ n, v.name? = some n ∧ (s.resolveName n).isMapped = true ∧ c = mapperName n role := by
  cases hb : v.base with
  | primitive k l =>
    simp only [conversion, change, Conversion.calls, hb, dateChange] at h
    cases hk : k.isDate <;> cases hd : role.direction <;> simp [hk, hd] at h
  | named n =>
    refine ⟨n, by rw [Value.name?, hb], ?_⟩
    simp only [conversion, change, Conversion.calls, hb] at h
    by_cases hn : (s.resolveName n).isMapped = true
    · simpa [hn] using h
    · simp [hn] at h

/-- Only the pass over further members casts, to the type of what it converts. -/
def CastOf (s : Service) (role : Role) (v : Value) (cast : Option ElementType) : Prop :=
  ∀ e, cast = some e → ∃ n, v.name? = some n ∧ (s.resolveName n).isMapped = true ∧
    e = .declared role.source (role.source.spell n)

theorem castOf_none {v : Value} : s.CastOf role v none := nofun

theorem fold?_eq_some {t : TypeDecl} {c : MapClause} {f : Fold} (h : s.fold? role t c = some f) :
    (∃ x cast, s.CastOf role c.value cast ∧ f.converted = s.expression role c.value x cast) ∧
      f.facet = role.target ∧ f.spelling = role.target.spell t.name := by
  unfold fold? at h
  split_ifs at h
  obtain rfl := Option.some.inj h
  refine ⟨⟨_, _, ?_, rfl⟩, rfl, rfl⟩
  intro e he
  split at he
  · rename_i hr hn
    exact ⟨_, hn, by rw [← resolve_of_name? hn, hr, Resolution.isMapped], (Option.some.inj he).symm⟩
  · rename_i hr hn
    exact ⟨_, hn, by rw [← resolve_of_name? hn, hr, Resolution.isMapped], (Option.some.inj he).symm⟩
  · cases he

theorem mem_expressions_openBody {t : TypeDecl} {c : MapClause} (hc : t.mapClause = some c)
    {e : Expression} (h : e ∈ (s.openBody role t c).expressions) :
    ∃ v ∈ t.values, e.conversion = s.conversion role v ∧ s.CastOf role v e.cast := by
  have hvalue : c.value ∈ t.values := by simp [TypeDecl.values, hc]
  have hfold : ∀ f, s.fold? role t c = some f →
      ∃ v ∈ t.values, f.converted.conversion = s.conversion role v ∧
        s.CastOf role v f.converted.cast := by
    intro f hf
    obtain ⟨⟨x, cast, hcast, hconverted⟩, -⟩ := fold?_eq_some hf
    rw [hconverted]
    exact ⟨c.value, hvalue, rfl, hcast⟩
  unfold openBody at h
  split_ifs at h
  · cases hf : s.fold? role t c with
    | none => simp [hf, RecordBody.expressions] at h
    | some f =>
      rw [hf] at h
      obtain rfl := List.mem_singleton.1 h
      exact hfold f hf
  · rcases List.mem_append.1 h with h | h
    · obtain ⟨f, hf, rfl⟩ := List.mem_map.1 h
      rcases List.mem_append.1 hf with hf | hf
      · obtain ⟨p, hp, rfl⟩ := List.mem_map.1 hf
        refine ⟨p.value, ?_, rfl, castOf_none⟩
        exact List.mem_append_left _ (List.mem_map_of_mem hp)
      · -- a required key holds a value of the map clause, whatever that says of absence
        obtain ⟨k, -, rfl⟩ := List.mem_map.1 hf
        exact ⟨c.value, hvalue, rfl, castOf_none⟩
    · obtain ⟨f, hf, rfl⟩ := List.mem_map.1 h
      exact hfold f (Option.mem_toList.1 hf)

/-- Every conversion of a record mapper is that of a value which the record holds. -/
theorem mem_expressions_recordMapper {t : TypeDecl} {e : Expression}
    (h : e ∈ (s.recordMapper role t).body.expressions) :
    ∃ v ∈ t.values, e.conversion = s.conversion role v ∧ s.CastOf role v e.cast := by
  unfold recordMapper at h
  cases hc : t.mapClause with
  | some c =>
    simp only [hc] at h
    exact mem_expressions_openBody hc h
  | none =>
    simp only [hc] at h
    split_ifs at h
    · cases h
    · obtain ⟨f, hf, rfl⟩ := List.mem_map.1 h
      obtain ⟨p, hp, rfl⟩ := List.mem_map.1 hf
      refine ⟨p.value, ?_, rfl, castOf_none⟩
      exact List.mem_append_left _ (List.mem_map_of_mem hp)

theorem fold_spelling_recordMapper {t : TypeDecl} {f : Fold}
    (h : (s.recordMapper role t).body = .folded f ∨
      ∃ cs fs, (s.recordMapper role t).body = .destructured cs fs (some f)) :
    f.facet = role.target ∧ f.spelling = role.target.spell t.name := by
  cases hc : t.mapClause with
  | none =>
    simp only [recordMapper, hc] at h
    split_ifs at h <;> simp at h
  | some c =>
    have hfold : s.fold? role t c = some f := by
      simp only [recordMapper, hc, openBody] at h
      split_ifs at h
      · cases hf : s.fold? role t c <;> simp_all
      · simpa using h
    exact (fold?_eq_some hfold).2

/-- The integers that code for a service writes out: the version, status codes and constants. -/
def integers (s : Service) : List Int :=
  s.majorVersion :: s.bindings.map (·.http.successCode) ++
    (Check.places s).flatMap fun v => v.2.integers

theorem integers_subset_of_place {p : Place × Value} (hp : p ∈ Check.places s) :
    p.2.integers ⊆ s.integers := by
  intro n hn
  exact List.mem_append_right _ (List.mem_flatMap.2 ⟨p, hp, hn⟩)

theorem integers_subset_of_type {t : TypeDecl} (ht : t ∈ s.types) {v : Value} (hv : v ∈ t.values) :
    v.integers ⊆ s.integers := by
  obtain ⟨p, hp⟩ : ∃ p, (p, v) ∈ Check.typePlaces t := by
    rcases List.mem_append.1 hv with hv | hv
    · obtain ⟨q, hq, rfl⟩ := List.mem_map.1 hv
      exact ⟨_, List.mem_append_left _ (List.mem_map_of_mem hq)⟩
    · cases hc : t.mapClause with
      | none => simp [hc] at hv
      | some c =>
        rw [hc] at hv
        rcases List.mem_pair.1 hv with rfl | rfl
        · exact ⟨.mapKey t.name, by simp [Check.typePlaces, hc]⟩
        · exact ⟨.mapValue t.name, by simp [Check.typePlaces, hc]⟩
  have hplace : (p, v) ∈ Check.places s :=
    List.mem_append_left _ (List.mem_append_left _ (List.mem_flatMap.2 ⟨t, ht, hp⟩))
  exact integers_subset_of_place hplace

theorem integers_subset_of_property {t : TypeDecl} (ht : t ∈ s.types) {p : Property}
    (hp : p ∈ t.properties) : p.value.integers ⊆ s.integers :=
  integers_subset_of_type ht (List.mem_append_left _ (List.mem_map_of_mem hp))

theorem integers_subset_of_member {u : UnionDecl} (hu : u ∈ s.unions) {v : Value}
    (hv : v ∈ u.members) : v.integers ⊆ s.integers := by
  have hplace : (.member u.name, v) ∈ Check.places s :=
    List.mem_append_left _
      (List.mem_append_right _ (List.mem_flatMap.2 ⟨u, hu, List.mem_map_of_mem hv⟩))
  exact integers_subset_of_place hplace

theorem integers_subset_of_method {m : Method} (hm : m ∈ s.methods) {v : Value}
    (hv : v ∈ m.parameters.map (·.value) ++ m.returns.toList) : v.integers ⊆ s.integers := by
  obtain ⟨p, hp⟩ : ∃ p, (p, v) ∈ Check.methodPlaces m := by
    rcases List.mem_append.1 hv with hv | hv
    · obtain ⟨q, hq, rfl⟩ := List.mem_map.1 hv
      exact ⟨_, List.mem_append_left _ (List.mem_map_of_mem hq)⟩
    · exact ⟨.result m.name, List.mem_append_right _ (by simpa using hv)⟩
  have hplace : (p, v) ∈ Check.places s :=
    List.mem_append_right _ (List.mem_flatMap.2 ⟨m, hm, hp⟩)
  exact integers_subset_of_place hplace

/-- What the mappers of a role may mention: helpers, notices, integers of the service, records and
unions of either facet, and the mappers of what the roots lead to. -/
structure Mentionable (s : Service) (role : Role) (roots : List Value) (P : Mention → Prop) : Prop where
  helper : ∀ h, P (.helper h)
  notice : ∀ n, P (.notice n)
  numeral : ∀ n ∈ s.integers, P (.numeral n)
  declared : ∀ f n, (s.resolveName n).isMapped = true → P (.declared f (f.spell n))
  mapper : ∀ n, s.Reaches roots n → P (.mapper (mapperName n role))

/-- A value that leads to nothing but what the roots lead to. -/
def Covered (s : Service) (roots : List Value) (v : Value) : Prop :=
  ∀ n, v.name? = some n → (s.resolveName n).isMapped = true → s.Reaches roots n

theorem covered_of_mem_values {t : TypeDecl} (ht : s.resolveName t.name = .type t)
    (hr : s.Reaches roots t.name) {v : Value} (hv : v ∈ t.values) : s.Covered roots v := by
  intro n hn hmapped
  refine .step hr (leads_iff.2 ?_) hmapped
  rw [successors, ht]
  exact List.mem_filterMap.2 ⟨v, hv, hn⟩

theorem covered_of_mem_members {u : UnionDecl} (hu : s.resolveName u.name = .union u)
    (hr : s.Reaches roots u.name) {v : Value} (hv : v ∈ u.members) : s.Covered roots v :=
  fun _ hn hmapped => .step hr (.member hu hv hn) hmapped

section Mentionable

variable (hP : s.Mentionable role roots P)

include hP

theorem Covered.calls {v : Value} (hv : s.Covered roots v) :
    ∀ c ∈ (s.conversion role v).calls, P (.mapper c) := by
  intro c hc
  obtain ⟨n, hn, hmapped, rfl⟩ := mem_calls_conversion hc
  exact hP.mapper n (hv n hn hmapped)

/-- A conversion may be mentioned, with a cast to what it converts. -/
theorem Covered.mentions {v : Value} (hv : s.Covered roots v) {e : Expression}
    (he : e.conversion = s.conversion role v) (hcast : s.CastOf role v e.cast) :
    ∀ m ∈ e.mentions, P m := by
  intro m hm
  rcases List.mem_append.1 hm with hm | hm
  · cases hc : e.cast with
    | none => simp [hc] at hm
    | some t =>
      obtain ⟨n, -, hmapped, rfl⟩ := hcast t hc
      rw [hc] at hm
      obtain rfl := List.mem_singleton.1 hm
      exact hP.declared _ n hmapped
  · rw [he, Conversion.mentions_eq] at hm
    obtain ⟨c, hc, rfl⟩ := List.mem_map.1 hm
    exact hv.calls hP c hc

theorem Mentionable.signature {n : String} (hn : (s.resolveName n).isMapped = true) :
    ∀ m ∈ (Signature.mk n role).mentions, P m := by
  intro m hm
  rcases List.mem_pair.1 hm with rfl | rfl
  · exact hP.declared _ n hn
  · exact hP.declared _ n hn

/-- The mapper of a record that is reached calls and mentions only what it may. -/
theorem Mentionable.recordMapper {t : TypeDecl} (ht : s.resolveName t.name = .type t)
    (hr : s.Reaches roots t.name) :
    (∀ m ∈ (s.recordMapper role t).mentions, P m) ∧
      ∀ c ∈ (s.recordMapper role t).body.calls, P (.mapper c) := by
  have hmapped : (s.resolveName t.name).isMapped = true := by rw [ht, Resolution.isMapped]
  constructor
  · intro m hm
    rcases List.mem_append.1 hm with hm | hm
    · exact hP.signature hmapped m hm
    · rcases RecordBody.mem_mentions hm with rfl | ⟨e, he, hm⟩ | ⟨f, hf, rfl⟩
      · exact hP.helper _
      · obtain ⟨v, hv, hconv, hcast⟩ := mem_expressions_recordMapper he
        exact (covered_of_mem_values ht hr hv).mentions hP hconv hcast m hm
      · obtain ⟨hfacet, hspelling⟩ := fold_spelling_recordMapper hf
        rw [hspelling, hfacet]
        exact hP.declared _ _ hmapped
  · intro c hc
    obtain ⟨e, he, hc⟩ := List.mem_flatMap.1 hc
    obtain ⟨v, hv, hconv, -⟩ := mem_expressions_recordMapper he
    rw [hconv] at hc
    exact (covered_of_mem_values ht hr hv).calls hP c hc

end Mentionable

end Service

end DtoGen
