import DtoGen.Mapping.Record
import DtoGen.Proofs.Execution
import DtoGen.Proofs.Meets
import DtoGen.Proofs.Reading
import DtoGen.Proofs.Representation
import DtoGen.Proofs.Spelling
import Mathlib

namespace DtoGen

namespace Assoc

variable {α : Type}

theorem lookup_cons (e : String × α) (t : List (String × α)) (k : String) :
    (e :: t).lookup k = if k = e.1 then some e.2 else t.lookup k := by
  obtain ⟨a, b⟩ := e
  by_cases h : k = a
  · simp [h]
  · have hne : (k == a) = false := beq_eq_false_iff_ne.2 h
    simp [List.lookup_cons, hne, h]

theorem lookup_put (key : String) (value : α) (t : List (String × α)) (k : String) :
    (put key value t).lookup k = if k = key then some value else t.lookup k := by
  induction t with
  | nil => rw [put, lookup_cons]
  | cons e rest ih =>
    obtain ⟨a, b⟩ := e
    rw [put]
    split_ifs with ha hk hk
    · rw [lookup_cons, if_pos (hk.trans ha.symm)]
    · have hne : k ≠ a := fun h => hk (h.trans ha)
      rw [lookup_cons, lookup_cons, if_neg hne, if_neg hne]
    · have hne : k ≠ a := fun h => ha (h.symm.trans hk)
      rw [lookup_cons, if_neg hne, ih, if_pos hk]
    · rw [lookup_cons, lookup_cons, ih, if_neg hk]

theorem lookup_ofList (pairs : List (String × α)) (k : String) :
    (ofList pairs).lookup k = pairs.reverse.lookup k := by
  induction pairs using List.reverseRecOn with
  | nil => rfl
  | append_singleton pairs e ih =>
    have hlast : ofList (pairs ++ [e]) = put e.1 e.2 (ofList pairs) := by
      simp [ofList, List.foldl_append]
    rw [hlast, lookup_put, ih, List.reverse_append, List.reverse_singleton, List.singleton_append,
      lookup_cons]

theorem lookup_filter (f : String → Bool) (t : List (String × α)) (k : String) :
    (t.filter fun e => f e.1).lookup k = if f k then t.lookup k else none := by
  induction t with
  | nil => simp
  | cons e rest ih =>
    rw [List.filter_cons, lookup_cons]
    by_cases hk : k = e.1
    · subst hk
      cases hf : f e.1
      · simp only [Bool.false_eq_true, if_false, ih, hf]
      · simp only [if_true, lookup_cons]
    · cases hf : f e.1
      · simp only [Bool.false_eq_true, if_false, ih, hk]
      · simp only [if_true, lookup_cons, ih, hk, if_false]

theorem mem_of_lookup {t : List (String × α)} {k : String} {v : α} (h : t.lookup k = some v) :
    (k, v) ∈ t := by
  obtain ⟨l, r, he, -⟩ := List.lookup_eq_some_iff.1 h
  simp [he]

theorem mem_of_lookup_ofList {pairs : List (String × α)} {k : String} {v : α}
    (h : (ofList pairs).lookup k = some v) : (k, v) ∈ pairs := by
  rw [lookup_ofList] at h
  exact List.mem_reverse.1 (mem_of_lookup h)

/-- Where settings of one key agree, each of them counts. -/
theorem lookup_ofList_of_mem {pairs : List (String × α)}
    (h : ∀ e ∈ pairs, ∀ e' ∈ pairs, e.1 = e'.1 → e.2 = e'.2) {e : String × α} (he : e ∈ pairs) :
    (ofList pairs).lookup e.1 = some e.2 := by
  -- the value that is found may be that of another setting, but it is the same
  cases hl : (ofList pairs).lookup e.1 with
  | none =>
    rw [lookup_ofList, List.lookup_eq_none_iff] at hl
    simpa using hl e (List.mem_reverse.2 he)
  | some v => rw [h e he _ (mem_of_lookup_ofList hl) rfl]

end Assoc

def Datum.isUndefined : Datum → Bool
  | .undefined => true
  | _ => false

theorem Datum.isUndefined_iff {d : Datum} : d.isUndefined = true ↔ d = .undefined := by
  cases d <;> simp [isUndefined]

namespace Members

def compact (x : Members) : Members := x.filter fun e => !(x.read e.1).isUndefined

theorem lookup_compact (x : Members) (k : String) :
    x.compact.lookup k = if (x.read k).isUndefined then none else x.lookup k := by
  rw [compact, Assoc.lookup_filter fun k => !(x.read k).isUndefined]
  cases (x.read k).isUndefined <;> rfl

@[simp] theorem read_compact (x : Members) (k : String) : x.compact.read k = x.read k := by
  rw [read, lookup_compact]
  split_ifs with h
  · exact (Datum.isUndefined_iff.1 h).symm
  · rfl

/-- The object of a literal, given its members in order. -/
def ofPairs (pairs : List (String × Datum)) : Members := compact (Assoc.ofList pairs)

theorem read_ofPairs {pairs : List (String × Datum)}
    (h : ∀ e ∈ pairs, ∀ e' ∈ pairs, e.1 = e'.1 → e.2 = e'.2) {e : String × Datum} (he : e ∈ pairs) :
    (ofPairs pairs).read e.1 = e.2 := by
  rw [ofPairs, read_compact, read, Assoc.lookup_ofList_of_mem h he, Option.getD_some]

theorem exists_mem_of_lookup_ofPairs {pairs : List (String × Datum)} {k : String} {d : Datum}
    (h : (ofPairs pairs).lookup k = some d) : ∃ e ∈ pairs, e.1 = k := by
  rw [ofPairs, lookup_compact] at h
  split_ifs at h
  exact ⟨(k, d), Assoc.mem_of_lookup_ofList h, rfl⟩

def Defined (x : Members) : Prop := ∀ k, x.lookup k ≠ some .undefined

theorem defined_ofPairs (pairs : List (String × Datum)) : (ofPairs pairs).Defined := by
  intro k hk
  rw [ofPairs, lookup_compact] at hk
  split_ifs at hk with hundefined
  simp [read, hk, Datum.isUndefined] at hundefined

/-- Such objects differ only where they are read differently. -/
theorem lookup_eq_of_read_eq {x y : Members} (hx : x.Defined) (hy : y.Defined) {k : String}
    (h : x.read k = y.read k) : x.lookup k = y.lookup k := by
  have hxk := hx k
  have hyk := hy k
  unfold read at h
  cases hx' : x.lookup k <;> cases hy' : y.lookup k <;> simp_all

end Members

/-- The value of an operand that is read from a member of the parameter. -/
def Operand.run (x : Members) : Operand → Option Datum
  | .member _ n => (Naming.accessName? (Naming.accessor n)).map x.read
  | .raw _ => none

/-- What is made of the value of the operand; what is absent or null stays so where it is asked for. -/
def Expression.convert (env : Runtime) (e : Expression) (d : Datum) : Option Datum :=
  if (e.guardsAbsent && d.isUndefined) || (e.guardsNull && d.isNull) then some d
  else e.conversion.run env d

def Expression.run (env : Runtime) (x : Members) (e : Expression) : Option Datum :=
  (e.operand.run x).bind (e.convert env)

def Field.run (env : Runtime) (x : Members) (f : Field) : Option (String × Datum) :=
  (Naming.keyName? (Naming.memberKey f.name)).bind fun k =>
    (f.expression.run env x).map fun d => (k, d)

def Operand.valueIn (vars : Members) : Operand → Option Datum
  | .raw v => vars.lookup v
  | .member _ _ => none

def Expression.runIn (env : Runtime) (vars : Members) (e : Expression) : Option Datum :=
  (e.operand.valueIn vars).bind (e.convert env)

def Field.runIn (env : Runtime) (vars : Members) (f : Field) : Option (String × Datum) :=
  (Naming.keyName? (Naming.memberKey f.name)).bind fun k =>
    (f.expression.runIn env vars).map fun d => (k, d)

/-- The variable of a member that is taken out, with the key that is read for it. -/
def Capture.binding? (c : Capture) : Option (String × String) :=
  (Naming.keyName? (Naming.memberKey c.name)).map fun k => (c.variableName, k)

def Members.keys (x : Members) : List String := (x.map Prod.fst).eraseDups

namespace Fold

/-- A member that does not convert to nothing is set under its own key. -/
def step (env : Runtime) (parameter : String) (x : Members) (f : Fold) (acc : Members)
    (key : String) : Option Members :=
  (f.converted.runIn env [(parameter ++ "[key]", x.read key)]).map fun d =>
    if d.isUndefined then acc else Assoc.put key d acc

def run (env : Runtime) (parameter : String) (x : Members) (f : Fold) (keys : List String)
    (acc : Members) : Option Members :=
  keys.foldlM (f.step env parameter x) acc

end Fold

/-- The object that a body makes of the members of its parameter. -/
def RecordBody.run (env : Runtime) (parameter : String) (x : Members) : RecordBody → Option Members
  | .empty => some []
  | .literal fields => (fields.mapM (Field.run env x)).map .ofPairs
  | .destructured captures fields rest =>
    (captures.mapM Capture.binding?).bind fun bound =>
      let vars := bound.map fun b => (b.1, x.read b.2)
      ((fields.mapM (Field.runIn env vars)).map Members.ofPairs).bind fun defined =>
        match rest with
        | none => some defined
        | some f =>
          f.run env parameter x (x.keys.filter fun k => k ∉ bound.map Prod.snd) defined
  | .folded f => f.run env parameter x x.keys []

def RecordMapper.construct (env : Runtime) (m : RecordMapper) (x : Members) : Option Members :=
  m.body.run env m.signature.role.parameter x

theorem mapM_eq_some_iff {α β : Type} {f : α → Option β} {as : List α} {bs : List β} :
    as.mapM f = some bs ↔ List.Forall₂ (fun a b => f a = some b) as bs := by
  induction as generalizing bs with
  | nil => simp [eq_comm]
  | cons a as ih =>
    simp only [List.mapM_cons, Option.pure_def, Option.bind_eq_bind, Option.bind_eq_some_iff,
      List.forall₂_cons_left_iff, ih, Option.some.injEq]
    constructor
    · rintro ⟨b, hb, cs, hcs, rfl⟩
      exact ⟨b, cs, hb, hcs, rfl⟩
    · rintro ⟨b, cs, hb, hcs, rfl⟩
      exact ⟨b, hb, cs, hcs, rfl⟩

theorem mapM_eq_some_map {α β : Type} {f : α → Option β} {g : α → β} {as : List α}
    (h : ∀ a ∈ as, f a = some (g a)) : as.mapM f = some (as.map g) := by
  rw [mapM_eq_some_iff, List.forall₂_map_right_iff, List.forall₂_same]
  exact h

namespace Service

variable {s : Service} {role : Role} {t : TypeDecl} {env : Runtime} {x y : Members}

theorem conversion_run_of_isIdentity {v : Value} (h : (s.conversion role v).isIdentity = true)
    (d : Datum) : (s.conversion role v).run env d = some d := by
  have hchange : s.change role v = .identity := by simpa [Conversion.isIdentity, conversion] using h
  simp [Conversion.run, conversion, hchange, Change.run]

theorem convert_expression {v : Value} (h : s.keeps v = true) (operand : Operand)
    (cast : Option ElementType) (d : Datum) :
    (s.expression role v operand cast).convert env d = some d := by
  have hidentity := (s.isIdentity_conversion role v).trans h
  simp [Expression.convert, expression, hidentity, conversion_run_of_isIdentity hidentity]

/-- A property that mappers leave alone is read under one name and written under another. -/
theorem run_propertyField {p : Property} (h : s.keeps p.value = true) (object : String) :
    (s.propertyField role p object).run env x =
      (Naming.denoted? (role.target.memberName p.name)).bind fun k =>
        (Naming.denoted? (role.source.memberName p.name)).map fun a => (k, x.read a) := by
  unfold Field.run propertyField
  rw [Naming.keyName?_memberKey]
  congr 1
  funext k
  simp only [Expression.run, convert_expression h]
  rw [expression, Operand.run, Naming.accessName?_accessor]
  cases Naming.denoted? (role.source.memberName p.name) <;> rfl

/-- A record without a map clause is made of its properties, in their order. -/
theorem construct_recordMapper (hc : t.mapClause = none) :
    (s.recordMapper role t).construct env x =
      (t.properties.mapM fun p => (s.propertyField role p role.parameter).run env x).map .ofPairs := by
  unfold RecordMapper.construct RecordBody.run recordMapper
  simp only [hc]
  cases hp : t.properties with
  | nil => rfl
  | cons p ps => simp [List.mapM_map, Function.comp_def]

theorem defined_construct (hc : t.mapClause = none)
    (hy : (s.recordMapper role t).construct env x = some y) : y.Defined := by
  rw [construct_recordMapper hc, Option.map_eq_some_iff] at hy
  obtain ⟨pairs, -, rfl⟩ := hy
  exact Members.defined_ofPairs pairs

theorem exists_property_of_lookup (hc : t.mapClause = none)
    (hk : ∀ p ∈ t.properties, s.keeps p.value = true)
    (hy : (s.recordMapper role t).construct env x = some y) {k : String} {d : Datum}
    (h : y.lookup k = some d) :
    ∃ p ∈ t.properties, Naming.denoted? (role.target.memberName p.name) = some k := by
  rw [construct_recordMapper hc, Option.map_eq_some_iff] at hy
  obtain ⟨pairs, hpairs, rfl⟩ := hy
  obtain ⟨e, he, rfl⟩ := Members.exists_mem_of_lookup_ofPairs h
  obtain ⟨p, hp, hrun⟩ := exists_related_of_mem_right (mapM_eq_some_iff.1 hpairs) he
  rw [run_propertyField (hk p hp)] at hrun
  obtain ⟨k, hdenoted, hrun⟩ := Option.bind_eq_some_iff.1 hrun
  obtain ⟨a, -, rfl⟩ := Option.map_eq_some_iff.1 hrun
  exact ⟨p, hp, hdenoted⟩

end Service

theorem Facet.faithful_memberName (f : Facet) {name : String} (h : Naming.Faithful name) :
    Naming.Faithful (f.memberName name) := by
  cases f with
  | internal => exact Naming.faithful_camel h
  | wire => exact h

namespace Service

variable {s : Service} {role : Role} {t : TypeDecl} {env : Runtime} {x y : Members}

/-- Where all names are read back, the mapper only respells the keys. -/
theorem construct_of_faithful (hc : t.mapClause = none)
    (hk : ∀ p ∈ t.properties, s.keeps p.value = true)
    (hf : ∀ p ∈ t.properties, Naming.Faithful p.name) :
    (s.recordMapper role t).construct env x = some (.ofPairs (t.properties.map fun p =>
      (role.target.memberName p.name, x.read (role.source.memberName p.name)))) := by
  rw [construct_recordMapper hc, Option.map_eq_some_iff]
  refine ⟨_, mapM_eq_some_map ?_, rfl⟩
  intro p hp
  have htarget := role.target.faithful_memberName (hf p hp)
  have hsource := role.source.faithful_memberName (hf p hp)
  rw [run_propertyField (hk p hp), Naming.denoted?_of_faithful htarget,
    Naming.denoted?_of_faithful hsource, Option.bind_some, Option.map_some]

/-- If moreover the keys differ, then every property is found under its new key. -/
theorem read_construct (hc : t.mapClause = none) (hk : ∀ p ∈ t.properties, s.keeps p.value = true)
    (hf : ∀ p ∈ t.properties, Naming.Faithful p.name)
    (hd : ∀ p ∈ t.properties, ∀ q ∈ t.properties,
      role.target.memberName p.name = role.target.memberName q.name → p.name = q.name)
    (hy : (s.recordMapper role t).construct env x = some y) {p : Property} (hp : p ∈ t.properties) :
    y.read (role.target.memberName p.name) = x.read (role.source.memberName p.name) := by
  rw [construct_of_faithful hc hk hf] at hy
  obtain rfl := Option.some.inj hy
  have hmem := List.mem_map_of_mem (f := fun p : Property =>
    (role.target.memberName p.name, x.read (role.source.memberName p.name))) hp
  refine Members.read_ofPairs ?_ hmem
  intro e he e' he' hkey
  obtain ⟨a, ha, rfl⟩ := List.mem_map.1 he
  obtain ⟨b, hb, rfl⟩ := List.mem_map.1 he'
  rw [hd a ha b hb hkey]

end Service

/-- What may come over the wire for a record: values under declared names, none of them undefined. -/
structure TypeDecl.Payload (t : TypeDecl) (w : Members) : Prop where
  declared : ∀ k d, w.lookup k = some d → ∃ p ∈ t.properties, p.name = k
  defined : w.Defined

theorem TypeDecl.payload_of_forall {t : TypeDecl} {w : Members}
    (h : ∀ e ∈ w, (∃ p ∈ t.properties, p.name = e.1) ∧ e.2 ≠ .undefined) : t.Payload w where
  declared k d hd := (h (k, d) (Assoc.mem_of_lookup hd)).1
  defined k hk := (h (k, .undefined) (Assoc.mem_of_lookup hk)).2 rfl

/-- Names that a record can carry through both facets. -/
structure TypeDecl.Respellable (t : TypeDecl) : Prop where
  faithful : ∀ p ∈ t.properties, Naming.Faithful p.name
  distinct : ∀ p ∈ t.properties, ∀ q ∈ t.properties,
    Naming.propertyName p.name = Naming.propertyName q.name → p.name = q.name

namespace Service

def Lossless (s : Service) (t : TypeDecl) (inward outward : Role) (env : Runtime) : Prop :=
  ∀ w, t.Payload w → ∃ x y, (s.recordMapper inward t).construct env w = some x ∧
    (s.recordMapper outward t).construct env x = some y ∧ ∀ k, y.lookup k = w.lookup k

variable {s : Service} {t : TypeDecl} {inward outward : Role} {env : Runtime}

theorem faithful_of_lossless (hc : t.mapClause = none)
    (hk : ∀ p ∈ t.properties, s.keeps p.value = true) (h : s.Lossless t inward outward env) :
    ∀ p ∈ t.properties, Naming.Faithful p.name := by
  intro p hp
  -- a key that comes back was read off some name, and such keys are faithful
  have hpayload : t.Payload [(p.name, .null)] := by
    refine TypeDecl.payload_of_forall fun e he => ?_
    obtain rfl := List.mem_singleton.1 he
    exact ⟨⟨p, hp, rfl⟩, by simp⟩
  obtain ⟨x, y, -, hy, hback⟩ := h _ hpayload
  have hlookup : y.lookup p.name = some .null := by rw [hback, Assoc.lookup_cons, if_pos rfl]
  obtain ⟨q, -, hq⟩ := exists_property_of_lookup hc hk hy hlookup
  exact Naming.faithful_of_denoted? hq

/-- A mapper that writes the wire finds each value under the spelling of its name. -/
theorem read_outward {x y : Members} (hc : t.mapClause = none)
    (hk : ∀ p ∈ t.properties, s.keeps p.value = true)
    (hf : ∀ p ∈ t.properties, Naming.Faithful p.name) (hout : outward.direction = .internalToWire)
    (hy : (s.recordMapper outward t).construct env x = some y) {p : Property}
    (hp : p ∈ t.properties) : y.read p.name = x.read (Naming.propertyName p.name) := by
  have htarget : outward.target = .wire := congrArg Direction.target hout
  have hsource : outward.source = .internal := congrArg Direction.source hout
  have hread := read_construct hc hk hf (fun a _ b _ hkey => by rwa [htarget] at hkey) hy hp
  rwa [htarget, hsource] at hread

/-- Names of one spelling share their key inside, so one of two values is lost. -/
theorem distinct_of_lossless (hc : t.mapClause = none)
    (hk : ∀ p ∈ t.properties, s.keeps p.value = true)
    (hout : outward.direction = .internalToWire) (h : s.Lossless t inward outward env) :
    ∀ p ∈ t.properties, ∀ q ∈ t.properties,
      Naming.propertyName p.name = Naming.propertyName q.name → p.name = q.name := by
  have hf := faithful_of_lossless hc hk h
  intro p hp q hq hspelling
  by_contra hne
  -- an object with both names, and different values under them
  have hpayload : t.Payload [(p.name, .bool true), (q.name, .bool false)] := by
    refine TypeDecl.payload_of_forall fun e he => ?_
    rcases List.mem_pair.1 he with rfl | rfl
    · exact ⟨⟨p, hp, rfl⟩, by simp⟩
    · exact ⟨⟨q, hq, rfl⟩, by simp⟩
  obtain ⟨x, y, -, hy, hback⟩ := h _ hpayload
  have hequal : y.read p.name = y.read q.name := by
    rw [read_outward hc hk hf hout hy hp, read_outward hc hk hf hout hy hq, hspelling]
  simp [Members.read, hback, Assoc.lookup_cons, Ne.symm hne] at hequal

/-- Through both mappers every declared name is read as it was. -/
theorem read_there_and_back {w x y : Members} (hc : t.mapClause = none)
    (hk : ∀ p ∈ t.properties, s.keeps p.value = true) (hin : inward.direction = .wireToInternal)
    (hout : outward.direction = .internalToWire) (hr : t.Respellable)
    (hx : (s.recordMapper inward t).construct env w = some x)
    (hy : (s.recordMapper outward t).construct env x = some y) {p : Property}
    (hp : p ∈ t.properties) : y.read p.name = w.read p.name := by
  have htarget : inward.target = .internal := congrArg Direction.target hin
  have hsource : inward.source = .wire := congrArg Direction.source hin
  have hkeys : ∀ a ∈ t.properties, ∀ b ∈ t.properties,
      inward.target.memberName a.name = inward.target.memberName b.name → a.name = b.name := by
    rw [htarget]
    exact hr.distinct
  have hinside := read_construct hc hk hr.faithful hkeys hx hp
  rw [htarget, hsource] at hinside
  calc y.read p.name = x.read (Naming.propertyName p.name) :=
        read_outward hc hk hr.faithful hout hy hp
    _ = w.read p.name := hinside

theorem lookup_eq_none_of_undeclared {x y : Members} (hc : t.mapClause = none)
    (hk : ∀ p ∈ t.properties, s.keeps p.value = true)
    (hf : ∀ p ∈ t.properties, Naming.Faithful p.name) (hout : outward.direction = .internalToWire)
    (hy : (s.recordMapper outward t).construct env x = some y) {k : String}
    (h : ¬ ∃ p ∈ t.properties, p.name = k) : y.lookup k = none := by
  have htarget : outward.target = .wire := congrArg Direction.target hout
  rw [Option.eq_none_iff_forall_ne_some]
  intro d hd
  obtain ⟨p, hp, hdenoted⟩ := exists_property_of_lookup hc hk hy hd
  rw [htarget, Facet.memberName, Naming.denoted?_of_faithful (hf p hp)] at hdenoted
  exact h ⟨p, hp, Option.some.inj hdenoted⟩

/-- An object from the wire comes back as it was just if the names of the record allow it. -/
theorem lossless_iff (hc : t.mapClause = none) (hk : ∀ p ∈ t.properties, s.keeps p.value = true)
    (hin : inward.direction = .wireToInternal) (hout : outward.direction = .internalToWire) :
    s.Lossless t inward outward env ↔ t.Respellable := by
  constructor
  · intro h
    exact ⟨faithful_of_lossless hc hk h, distinct_of_lossless hc hk hout h⟩
  · intro hr w hw
    obtain ⟨x, hx⟩ : ∃ x, (s.recordMapper inward t).construct env w = some x :=
      ⟨_, construct_of_faithful hc hk hr.faithful⟩
    obtain ⟨y, hy⟩ : ∃ y, (s.recordMapper outward t).construct env x = some y :=
      ⟨_, construct_of_faithful hc hk hr.faithful⟩
    refine ⟨x, y, hx, hy, fun k => ?_⟩
    -- only declared names come in, and only they go out
    by_cases hdeclared : ∃ p ∈ t.properties, p.name = k
    · obtain ⟨p, hp, rfl⟩ := hdeclared
      refine Members.lookup_eq_of_read_eq (defined_construct hc hy) hw.defined ?_
      exact read_there_and_back hc hk hin hout hr hx hy hp
    · rw [lookup_eq_none_of_undeclared hc hk hr.faithful hout hy hdeclared]
      refine (Option.eq_none_iff_forall_ne_some.2 fun d hd => ?_).symm
      exact hdeclared (hw.declared k d hd)

def query (key : String) : TypeDecl := textRecord "query" ["page_size", key]

def queries (key : String) : Service where
  title := "queries"
  types := [query key]

theorem faithful_query {key : String} (h : Naming.denoted? key = some key) :
    ∀ p ∈ (query key).properties, Naming.Faithful p.name := by
  have hsize : Naming.denoted? "page_size" = some "page_size" := by decide
  simp only [query, textRecord, List.map_cons, List.map_nil, List.forall_mem_cons]
  exact ⟨Naming.faithful_of_denoted? hsize, Naming.faithful_of_denoted? h, List.forall_mem_nil _⟩

theorem query_lossless : (query "it's").mapClause = none ∧
    (∀ p ∈ (query "it's").properties, (queries "it's").keeps p.value = true) ∧
    ∀ env, (queries "it's").Lossless (query "it's") .serverInbound .serverOutbound env := by
  have hkeeps : ∀ p ∈ (query "it's").properties, (queries "it's").keeps p.value = true := by decide
  refine ⟨rfl, hkeeps, fun env => (lossless_iff rfl hkeeps rfl rfl).2 ⟨?_, by decide⟩⟩
  exact faithful_query (by decide)

/-- Of two values under one spelling the first is lost. -/
theorem query_loses : (queries "pageSize").check.defects = [] ∧
    query "pageSize" ∈ (queries "pageSize").types ∧ (query "pageSize").mapClause = none ∧
    (∀ p ∈ (query "pageSize").properties, (queries "pageSize").keeps p.value = true) ∧
    (query "pageSize").Payload [("page_size", .string "a"), ("pageSize", .string "b")] ∧
    ∀ env,
      ((queries "pageSize").recordMapper .serverInbound (query "pageSize")).construct env
          [("page_size", .string "a"), ("pageSize", .string "b")] =
        some [("pageSize", .string "b")] ∧
      ((queries "pageSize").recordMapper .serverOutbound (query "pageSize")).construct env
          [("pageSize", .string "b")] =
        some [("page_size", .string "b"), ("pageSize", .string "b")] := by
  have hkeeps : ∀ p ∈ (query "pageSize").properties, (queries "pageSize").keeps p.value = true := by
    decide
  have hfaithful : ∀ p ∈ (query "pageSize").properties, Naming.Faithful p.name :=
    faithful_query (by decide)
  refine ⟨by decide, by simp [queries], rfl, hkeeps, TypeDecl.payload_of_forall ?_, fun env => ?_⟩
  · simp [query, textRecord]
  · rw [construct_of_faithful rfl hkeeps hfaithful, construct_of_faithful rfl hkeeps hfaithful]
    exact ⟨rfl, rfl⟩

end Service

end DtoGen
